import Statsig.Client
import Statsig.Lib.Machine

/-!
# Does a refresh refresh?

The runs of one data adapter: calls of `GetDataSync` and `GetDataAsync`, completions of the fetches
in any order, and changes of the cache directory by whoever shares it.

`staysFresh_iff` says exactly when the value of a completed fetch is the one that is served from
then on.  It hinges on the insertion: `addToInMemoryCache` keeps an entry that is there, so a
refresh of a cached user is kept only if the eviction happens to hit that very user.
-/

set_option autoImplicit false

namespace Statsig

/-! ## One insertion -/

/-- The insertion of `result` under `key` ends with `result` under `key`. -/
def StoresFresh (m : UnorderedMap Str DataAdapterResult) (key : Str)
    (result : DataAdapterResult) : Prop :=
  m.find? key = none ∨ m.find? key = some result ∨
    (constants.kMaxCachedEvaluationsCount ≤ m.size ∧ oldestKey m = some key)

instance (m : UnorderedMap Str DataAdapterResult) (key : Str) (result : DataAdapterResult) :
    Decidable (StoresFresh m key result) := inferInstanceAs (Decidable (_ ∨ _ ∨ (_ ∧ _)))

section Insertion

variable (r : Rehash Str DataAdapterResult) (m : UnorderedMap Str DataAdapterResult)

/-- What `addToInMemoryCache` does: `emplace`, into the map or into the map without its oldest
entry. -/
theorem addToInMemoryCache_cases (key : Str) (result : DataAdapterResult) :
    (addToInMemoryCache r m key result = m.emplace r key result ∧
      ¬ (constants.kMaxCachedEvaluationsCount ≤ m.size ∧ oldestKey m = some key)) ∨
    ∃ oldest, constants.kMaxCachedEvaluationsCount ≤ m.size ∧ oldestKey m = some oldest ∧
      addToInMemoryCache r m key result = (m.erase oldest).emplace r key result := by
  rw [addToInMemoryCache]
  split
  · rename_i hsize
    exact .inl ⟨rfl, fun h ↦ by omega⟩
  · rename_i hsize
    cases ho : oldestKey m with
    | none => exact .inl ⟨rfl, fun h ↦ by simp at h⟩
    | some oldest => exact .inr ⟨oldest, by omega, rfl, rfl⟩

theorem find?_emplace_self_iff {key : Str} {result : DataAdapterResult} :
    (m.emplace r key result).find? key = some result ↔
      m.find? key = none ∨ m.find? key = some result := by
  cases h : m.find? key with
  | none => simp [UnorderedMap.find?_emplace_self r h]
  | some w => simp [UnorderedMap.emplace_of_bound r h, h]

theorem isSome_find?_emplace_self (key : Str) (result : DataAdapterResult) :
    ((m.emplace r key result).find? key).isSome = true := by
  cases h : m.find? key with
  | none => simp [UnorderedMap.find?_emplace_self r h]
  | some w => simp [UnorderedMap.emplace_of_bound r h, h]

/-- **When an insertion takes effect**: the key was free, or had that very result, or was the one
that eviction freed. -/
theorem find?_addToInMemoryCache_self {key : Str} {result : DataAdapterResult} :
    (addToInMemoryCache r m key result).find? key = some result ↔ StoresFresh m key result := by
  obtain ⟨heq, hnot⟩ | ⟨oldest, hsize, ho, heq⟩ := addToInMemoryCache_cases r m key result
  · rw [heq, find?_emplace_self_iff, StoresFresh]
    simp [hnot]
  · rw [heq, find?_emplace_self_iff, StoresFresh, ho]
    by_cases hk : key = oldest
    · simp [hk, hsize]
    · have hne : ¬ oldest = key := fun h ↦ hk h.symm
      simp [UnorderedMap.find?_erase_of_ne hk, hne]

theorem isSome_find?_addToInMemoryCache (key : Str) (result : DataAdapterResult) :
    ((addToInMemoryCache r m key result).find? key).isSome = true := by
  obtain ⟨heq, -⟩ | ⟨oldest, -, -, heq⟩ := addToInMemoryCache_cases r m key result
  · rw [heq]
    exact isSome_find?_emplace_self r m key result
  · rw [heq]
    exact isSome_find?_emplace_self r (m.erase oldest) key result

theorem find?_addToInMemoryCache_of_ne {key key' : Str} (h : key' ≠ key)
    (result : DataAdapterResult) :
    (addToInMemoryCache r m key result).find? key' = m.find? key' ∨
      (addToInMemoryCache r m key result).find? key' = none := by
  obtain ⟨heq, -⟩ | ⟨oldest, -, -, heq⟩ := addToInMemoryCache_cases r m key result
  · exact .inl (by rw [heq, UnorderedMap.find?_emplace_of_ne r h])
  · rw [heq, UnorderedMap.find?_emplace_of_ne r h]
    by_cases ho : key' = oldest
    · exact .inr (ho ▸ UnorderedMap.find?_erase_self m key')
    · exact .inl (UnorderedMap.find?_erase_of_ne ho)

theorem of_find?_addToInMemoryCache {key key' : Str} {result value : DataAdapterResult}
    (h : (addToInMemoryCache r m key result).find? key' = some value) :
    value = result ∨ m.find? key' = some value := by
  rcases addToInMemoryCache_cases r m key result with ⟨heq, -⟩ | ⟨oldest, -, -, heq⟩
  · exact UnorderedMap.of_find?_emplace r (heq ▸ h)
  · exact (UnorderedMap.of_find?_emplace r (heq ▸ h)).imp_right UnorderedMap.of_find?_erase

end Insertion

/-! ## What is in the map -/

namespace DataAdapter

variable {p : Platform} {lib : JsonText} {adapter : DataAdapter} {P : DataAdapterResult → Prop}

/-- The lambda of `GetDataAsync` inserts what it has got, if it has got a value. -/
theorem inMemoryCache_onLatest (p : Platform) (lib : JsonText) (adapter : DataAdapter)
    (r : Rehash Str DataAdapterResult) (user : StatsigUser)
    (latest : StatsigResult DataAdapterResult) :
    (adapter.onLatest p lib r user latest).1.sdkKey = adapter.sdkKey ∧
    (adapter.onLatest p lib r user latest).1.inMemoryCache =
      match latest.value with
      | none => adapter.inMemoryCache
      | some value => addToInMemoryCache r adapter.inMemoryCache
          (getCacheKey p adapter.sdkKey user) value := by
  cases hvalue : latest.value with
  | none => simp only [DataAdapter.onLatest, hvalue, and_self]
  | some value =>
    simp only [DataAdapter.onLatest, hvalue]
    split <;> exact ⟨rfl, rfl⟩

theorem of_find?_onLatest (r : Rehash Str DataAdapterResult) (user : StatsigUser)
    {latest : StatsigResult DataAdapterResult} {key : Str} {entry : DataAdapterResult}
    (h : (adapter.onLatest p lib r user latest).1.inMemoryCache.find? key = some entry) :
    adapter.inMemoryCache.find? key = some entry ∨ latest.value = some entry := by
  rw [(adapter.inMemoryCache_onLatest p lib r user latest).2] at h
  cases hvalue : latest.value with
  | none =>
    rw [hvalue] at h
    exact .inl h
  | some value =>
    rw [hvalue] at h
    rcases of_find?_addToInMemoryCache r adapter.inMemoryCache h with rfl | h
    · exact .inr rfl
    · exact .inl h

/-- Everything in the memory map has the property. -/
def Cached (P : DataAdapterResult → Prop) (adapter : DataAdapter) : Prop :=
  ∀ key value, adapter.inMemoryCache.find? key = some value → P value

theorem Cached.add (h : adapter.Cached P) (r : Rehash Str DataAdapterResult) (key : Str)
    {value : DataAdapterResult} (hvalue : P value) :
    Cached P { adapter with
      inMemoryCache := addToInMemoryCache r adapter.inMemoryCache key value } := by
  intro key' value' hfind
  rcases of_find?_addToInMemoryCache r adapter.inMemoryCache hfind with rfl | hfind
  · exact hvalue
  · exact h key' value' hfind

/-- `GetDataSync` answers from the map, or from the user's file, which it puts into the map. -/
theorem Cached.getDataSync (h : adapter.Cached P) (r : Rehash Str DataAdapterResult)
    (user : StatsigUser)
    (hread : ∀ result, (readFromCacheFile lib adapter.dir
      (getCacheKey p adapter.sdkKey user)).value = some result → P result) :
    (∀ value, (adapter.getDataSync p lib r user).1.value = some value → P value) ∧
      (adapter.getDataSync p lib r user).2.Cached P := by
  simp only [DataAdapter.getDataSync]
  split
  · rename_i result hfind
    refine ⟨fun value hvalue ↦ ?_, h⟩
    obtain rfl := Option.some_inj.mp hvalue
    exact h _ _ hfind
  · split
    · rename_i result _ hresult
      refine ⟨fun value hvalue ↦ ?_, h.add r _ (hread result hresult)⟩
      obtain rfl := Option.some_inj.mp hvalue
      exact hread result hresult
    · exact ⟨fun value hvalue ↦ absurd hvalue (by simp), h⟩

/-- What a fetch starts with is what the caller gave, or what `GetDataSync` answers. -/
theorem Cached.currentFor (h : adapter.Cached P) (r : Rehash Str DataAdapterResult)
    (user : StatsigUser) {current : Option DataAdapterResult}
    (hcurrent : ∀ value, current = some value → P value)
    (hread : ∀ result, (readFromCacheFile lib adapter.dir
      (getCacheKey p adapter.sdkKey user)).value = some result → P result) :
    (∀ value, (adapter.currentFor p lib r user current).1 = some value → P value) ∧
      (adapter.currentFor p lib r user current).2.Cached P := by
  cases current with
  | none => exact h.getDataSync r user hread
  | some result => exact ⟨hcurrent, h⟩

theorem Cached.onLatest (h : adapter.Cached P) (r : Rehash Str DataAdapterResult)
    (user : StatsigUser) {latest : StatsigResult DataAdapterResult}
    (hlatest : ∀ value, latest.value = some value → P value) :
    (adapter.onLatest p lib r user latest).1.Cached P :=
  fun key value hfind ↦ (of_find?_onLatest r user hfind).elim (h key value) (hlatest value)

end DataAdapter

/-! ## The machine -/

/-- A call of `GetDataAsync` whose fetch has not completed. -/
structure Fetch where
  user : StatsigUser
  current : Option DataAdapterResult
  deriving DecidableEq, Repr

/-- An adapter and its fetches in flight. -/
structure AdapterRun where
  adapter : DataAdapter
  fetches : List Fetch := []
  deriving DecidableEq, Repr

/-- What can happen to an adapter.  Calls that insert into the map say how it is rearranged. -/
inductive AdapterLabel where
  | getDataSync (user : StatsigUser) (r : Rehash Str DataAdapterResult)
  | getDataAsync (user : StatsigUser) (current : Option DataAdapterResult)
      (r : Rehash Str DataAdapterResult)
  | fetchDone (i : ℕ) (netResult : NetworkResult InitializeResponse) (now : Int64)
      (r : Rehash Str DataAdapterResult)
  | filesChanged (dir : CacheDir)

variable (p : Platform) (lib : JsonText)

namespace AdapterRun

/-- One step. -/
def step (s : AdapterRun) : AdapterLabel → Option AdapterRun
  | .getDataSync user r => some { s with adapter := (s.adapter.getDataSync p lib r user).2 }
  | .getDataAsync user current r =>
    let (current, adapter) := s.adapter.currentFor p lib r user current
    some { adapter, fetches := s.fetches ++ [⟨user, current⟩] }
  | .fetchDone i netResult now r =>
    (s.fetches[i]?).map fun fetch ↦
      { adapter := (s.adapter.onLatest p lib r fetch.user
          (DataAdapter.fetchLatest p fetch.user fetch.current now netResult)).1
        fetches := s.fetches.eraseIdx i }
  | .filesChanged dir => some { s with adapter := { s.adapter with dir } }

/-- The step is the completion, with a value, of a fetch for a user with this cache key. -/
def Completes (key : Str) (s : AdapterRun) : AdapterLabel → Prop
  | .fetchDone i netResult now _ => ∃ fetch, s.fetches[i]? = some fetch ∧
      DataAdapter.getCacheKey p s.adapter.sdkKey fetch.user = key ∧
      (DataAdapter.fetchLatest p fetch.user fetch.current now netResult).value.isSome = true
  | _ => False

/-- The step makes the key lose its entry. -/
def Evicts (key : Str) (s : AdapterRun) (a : AdapterLabel) : Prop :=
  (s.adapter.inMemoryCache.find? key).isSome = true ∧
    ∀ t, step p lib s a = some t → t.adapter.inMemoryCache.find? key = none

/-- Neither of the two. -/
def Undisturbed (key : Str) (s : AdapterRun) (a : AdapterLabel) : Prop :=
  ¬ Completes p key s a ∧ ¬ Evicts p lib key s a

/-- For every user with this cache key, `GetDataSync` returns the result and `UpdateUserSync` loads
it into the store. -/
def Serves (s : AdapterRun) (key : Str) (result : DataAdapterResult) : Prop :=
  ∀ user, DataAdapter.getCacheKey p s.adapter.sdkKey user = key → ∀ r,
    (s.adapter.getDataSync p lib r user).1 = { code := .ok, value := some result } ∧
    ∀ ctx : ClientState, (ctx.updateUserSync p lib r s.adapter user).2.1.store =
      (ctx.store.reset.setValues p lib (some result)).finalize

/-- The result is served however the run goes on, until a later completion for the key or its
eviction. -/
def StaysFresh (s : AdapterRun) (key : Str) (result : DataAdapterResult) : Prop :=
  ∀ later t, Machine.run (step p lib) s later = some t →
    Machine.AllSteps (step p lib) (Undisturbed p lib key) s later → Serves p lib t key result

/-! ## What is in the map is served -/

theorem getDataSync_of_bound {adapter : DataAdapter} {user : StatsigUser}
    {result : DataAdapterResult}
    (h : adapter.inMemoryCache.find? (DataAdapter.getCacheKey p adapter.sdkKey user) = some result)
    (r : Rehash Str DataAdapterResult) :
    adapter.getDataSync p lib r user = ({ code := .ok, value := some result }, adapter) := by
  simp only [DataAdapter.getDataSync, h]

theorem serves_of_bound {s : AdapterRun} {key : Str} {result : DataAdapterResult}
    (h : s.adapter.inMemoryCache.find? key = some result) : Serves p lib s key result := by
  intro user hkey r
  subst hkey
  refine ⟨by rw [getDataSync_of_bound p lib h], fun ctx ↦ ?_⟩
  have h' : s.adapter.inMemoryCache.find? (DataAdapter.getCacheKey p s.adapter.sdkKey
      (ctx.writeUser user).user) = some result := h
  simp only [ClientState.updateUserSync, getDataSync_of_bound p lib h']
  rfl

/-! ## What a step does to the map -/

/-- `GetDataSync` leaves the map alone or loads the file of a user that was not in it. -/
theorem inMemoryCache_getDataSync (adapter : DataAdapter) (user : StatsigUser)
    (r : Rehash Str DataAdapterResult) :
    (adapter.getDataSync p lib r user).2.sdkKey = adapter.sdkKey ∧
    ((adapter.getDataSync p lib r user).2.inMemoryCache = adapter.inMemoryCache ∨
      ∃ key result, adapter.inMemoryCache.find? key = none ∧
        (adapter.getDataSync p lib r user).2.inMemoryCache =
          addToInMemoryCache r adapter.inMemoryCache key result) := by
  simp only [DataAdapter.getDataSync]
  split
  · exact ⟨rfl, .inl rfl⟩
  · rename_i hnone
    split
    · exact ⟨rfl, .inr ⟨_, _, hnone, rfl⟩⟩
    · exact ⟨rfl, .inl rfl⟩

/-- **Steps.**  The map stays, or one result is added, under a key that was free or that a
completing fetch is for. -/
theorem step_cases {s t : AdapterRun} {a : AdapterLabel} (h : step p lib s a = some t) :
    t.adapter.sdkKey = s.adapter.sdkKey ∧
    (t.adapter.inMemoryCache = s.adapter.inMemoryCache ∨
      ∃ r key result, t.adapter.inMemoryCache =
          addToInMemoryCache r s.adapter.inMemoryCache key result ∧
        (s.adapter.inMemoryCache.find? key = none ∨ Completes p key s a)) := by
  cases a with
  | getDataSync user r =>
    simp only [step, Option.some_inj] at h
    subst h
    obtain ⟨hkey, h | ⟨key, result, hnone, h⟩⟩ := inMemoryCache_getDataSync p lib s.adapter user r
    · exact ⟨hkey, .inl h⟩
    · exact ⟨hkey, .inr ⟨r, key, result, h, .inl hnone⟩⟩
  | getDataAsync user current r =>
    simp only [step, Option.some_inj] at h
    subst h
    cases current with
    | some result => exact ⟨rfl, .inl rfl⟩
    | none =>
      obtain ⟨hkey, h | ⟨key, result, hnone, h⟩⟩ :=
        inMemoryCache_getDataSync p lib s.adapter user r
      · exact ⟨hkey, .inl h⟩
      · exact ⟨hkey, .inr ⟨r, key, result, h, .inl hnone⟩⟩
  | fetchDone i netResult now r =>
    obtain ⟨fetch, hfetch, rfl⟩ := Option.map_eq_some_iff.mp h
    obtain ⟨hkey, hcache⟩ := s.adapter.inMemoryCache_onLatest p lib r fetch.user
      (DataAdapter.fetchLatest p fetch.user fetch.current now netResult)
    refine ⟨hkey, ?_⟩
    split at hcache
    · exact .inl hcache
    · rename_i value hvalue
      exact .inr ⟨r, _, value, hcache, .inr ⟨fetch, hfetch, rfl, by rw [hvalue]; rfl⟩⟩
  | filesChanged dir =>
    simp only [step, Option.some_inj] at h
    subst h
    exact ⟨rfl, .inl rfl⟩

/-- An entry survives every step that is not a completion for its key or its eviction. -/
theorem find?_of_undisturbed {s t : AdapterRun} {a : AdapterLabel} {key : Str}
    {result : DataAdapterResult} (hs : s.adapter.inMemoryCache.find? key = some result)
    (hok : Undisturbed p lib key s a) (h : step p lib s a = some t) :
    t.adapter.inMemoryCache.find? key = some result := by
  obtain ⟨-, hsame | ⟨r, key', value, hadd, hfree⟩⟩ := step_cases p lib h
  · rw [hsame, hs]
  have hne : key ≠ key' := by
    rintro rfl
    rcases hfree with hfree | hfree
    · rw [hs] at hfree
      exact absurd hfree (by simp)
    · exact hok.1 hfree
  rcases find?_addToInMemoryCache_of_ne r s.adapter.inMemoryCache hne value with heq | hgone
  · rw [hadd, heq, hs]
  · refine absurd ⟨by rw [hs]; rfl, fun u hu ↦ ?_⟩ hok.2
    rw [h, Option.some_inj] at hu
    rw [← hu, hadd, hgone]

/-- A result in the map is served until it is disturbed. -/
theorem staysFresh_of_bound {s : AdapterRun} {key : Str} {result : DataAdapterResult}
    (h : s.adapter.inMemoryCache.find? key = some result) : StaysFresh p lib s key result :=
  fun _ _ hrun hok ↦ serves_of_bound p lib
    (Machine.run_induct (I := fun s ↦ s.adapter.inMemoryCache.find? key = some result)
      (find?_of_undisturbed p lib) h hok hrun)

/-- **When a refresh refreshes.**  After the completion of a fetch with a value, that value is what
its user gets, until a later completion or an eviction, exactly when the map had nothing for the
user, or that very value, or was full with the user's entry the one to evict. -/
theorem staysFresh_iff {s t : AdapterRun} {i : ℕ} {fetch : Fetch}
    {netResult : NetworkResult InitializeResponse} {now : Int64}
    {r : Rehash Str DataAdapterResult} {result : DataAdapterResult}
    (hfetch : s.fetches[i]? = some fetch)
    (hresult : DataAdapter.fetchLatest p fetch.user fetch.current now netResult =
      { code := .ok, value := some result })
    (hstep : step p lib s (.fetchDone i netResult now r) = some t) :
    StaysFresh p lib t (DataAdapter.getCacheKey p s.adapter.sdkKey fetch.user) result ↔
      StoresFresh s.adapter.inMemoryCache (DataAdapter.getCacheKey p s.adapter.sdkKey fetch.user)
        result := by
  have ht : t.adapter = (s.adapter.onLatest p lib r fetch.user
      { code := .ok, value := some result }).1 := by
    simp only [step, hfetch, Option.map_some, Option.some_inj, hresult] at hstep
    rw [← hstep]
  obtain ⟨hkey, hcache⟩ := s.adapter.inMemoryCache_onLatest p lib r fetch.user
    { code := .ok, value := some result }
  rw [← ht] at hkey hcache
  replace hcache : t.adapter.inMemoryCache = addToInMemoryCache r s.adapter.inMemoryCache
      (DataAdapter.getCacheKey p s.adapter.sdkKey fetch.user) result := hcache
  rw [← find?_addToInMemoryCache_self r, ← hcache]
  refine ⟨fun hfresh ↦ ?_, staysFresh_of_bound p lib⟩
  -- nothing has to happen for a stale result to show
  have hserves := (hfresh [] t rfl trivial fetch.user (by rw [hkey]) r).1
  have hbound := isSome_find?_addToInMemoryCache r s.adapter.inMemoryCache
    (DataAdapter.getCacheKey p s.adapter.sdkKey fetch.user) result
  rw [← hcache] at hbound
  obtain ⟨old, hold⟩ := Option.isSome_iff_exists.mp hbound
  have hbound' : t.adapter.inMemoryCache.find?
      (DataAdapter.getCacheKey p t.adapter.sdkKey fetch.user) = some old := by
    rw [hkey, hold]
  rw [getDataSync_of_bound p lib hbound' r] at hserves
  obtain rfl : old = result := by simpa using hserves
  exact hold

/-! ## One user, refreshed twice -/

/-- The server's answer at the given time. -/
def answer (time : ℕ) : NetworkResult InitializeResponse where
  code := .ok
  value := some { time := Int64.ofNat time, hasUpdates := true }
  raw := initializeResponse.emptyText time

/-- Some user. -/
def aUser : StatsigUser := { userId := some (str "a-user") }

/-- What the answer is stored as. -/
def stored (time : ℕ) : DataAdapterResult where
  source := .network
  data := initializeResponse.emptyText time
  receivedAt := Int64.ofNat time
  fullUserHash := getFullUserHash .linux aUser

theorem fetchLatest_answer (time : ℕ) (current : Option DataAdapterResult) :
    DataAdapter.fetchLatest .linux aUser current (Int64.ofNat time) (answer time) =
      { code := .ok, value := some (stored time) } := rfl

/-- The adapter that the answer at the given time has reached. -/
noncomputable def refreshed (adapter : DataAdapter) (time : ℕ) : DataAdapter :=
  (adapter.onLatest .linux initializeResponse.twoTexts (Rehash.id _ _) aUser
    { code := .ok, value := some (stored time) }).1

/-- The completion of the fetch of `aUser`. -/
theorem step_answer (adapter : DataAdapter) (current : Option DataAdapterResult) (time : ℕ) :
    step .linux initializeResponse.twoTexts { adapter, fetches := [⟨aUser, current⟩] }
        (.fetchDone 0 (answer time) (Int64.ofNat time) (Rehash.id _ _)) =
      some { adapter := refreshed adapter time, fetches := [] } := by
  simp only [step, List.getElem?_cons_zero, Option.map_some, List.eraseIdx_cons_zero,
    fetchLatest_answer, refreshed]

theorem staysFresh_first :
    ∃ t, step .linux initializeResponse.twoTexts
        { adapter := { sdkKey := str "key" }, fetches := [⟨aUser, none⟩] }
        (.fetchDone 0 (answer 1) (Int64.ofNat 1) (Rehash.id _ _)) = some t ∧
      StaysFresh .linux initializeResponse.twoTexts t
        (DataAdapter.getCacheKey .linux (str "key") aUser) (stored 1) := by
  have hfetch : (AdapterRun.mk { sdkKey := str "key" } [⟨aUser, none⟩]).fetches[0]? =
      some ⟨aUser, none⟩ := rfl
  exact ⟨_, step_answer _ _ 1, (staysFresh_iff .linux initializeResponse.twoTexts hfetch
    (fetchLatest_answer 1 none) (step_answer _ _ 1)).mpr (.inl rfl)⟩

/-- The second refresh of a user is lost. -/
theorem not_forall_staysFresh :
    ¬ ∀ (p : Platform) (lib : JsonText) (sdkKey : Str) (dir : CacheDir) (before : List AdapterLabel)
      (s t : AdapterRun) (i : ℕ) (fetch : Fetch) (netResult : NetworkResult InitializeResponse)
      (now : Int64) (r : Rehash Str DataAdapterResult) (result : DataAdapterResult),
      Machine.run (step p lib) { adapter := { sdkKey, dir } } before = some s →
      s.fetches[i]? = some fetch →
      DataAdapter.fetchLatest p fetch.user fetch.current now netResult =
        { code := .ok, value := some result } →
      result.source = .network →
      step p lib s (.fetchDone i netResult now r) = some t →
      StaysFresh p lib t (DataAdapter.getCacheKey p s.adapter.sdkKey fetch.user) result := by
  intro h
  have hfirst : Machine.run (step .linux initializeResponse.twoTexts)
      { adapter := { sdkKey := str "key" } }
      [.getDataAsync aUser none (Rehash.id _ _),
        .fetchDone 0 (answer 1) (Int64.ofNat 1) (Rehash.id _ _),
        .getDataAsync aUser (some (stored 1)) (Rehash.id _ _)] =
      some { adapter := refreshed { sdkKey := str "key" } 1,
             fetches := [⟨aUser, some (stored 1)⟩] } := by
    rw [Machine.run_cons_eq_some]
    refine ⟨{ adapter := { sdkKey := str "key" }, fetches := [⟨aUser, none⟩] }, rfl, ?_⟩
    rw [Machine.run_cons, step_answer]
    rfl
  have hstale := h .linux initializeResponse.twoTexts (str "key") ∅ _ _ _ 0
    ⟨aUser, some (stored 1)⟩ (answer 2) (Int64.ofNat 2) (Rehash.id _ _) (stored 2) hfirst rfl
    (fetchLatest_answer 2 _) rfl (step_answer _ _ 2)
  have hserves := (hstale [] _ rfl trivial aUser rfl (Rehash.id _ _)).1
  exact absurd (congrArg (fun x ↦ x.value.map DataAdapterResult.receivedAt) hserves)
    (by decide +kernel)

end AdapterRun

end Statsig
