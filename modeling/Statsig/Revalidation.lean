import Statsig.Freshness
import Statsig.NetworkService

/-!
# What the final response of a fetch comes to

The final response goes through `HandleFetchValuesResponse`, `FetchLatest` and the lambda of
`GetDataAsync`.  For the cache there are three kinds of it (`ResponseKind`), with one lemma each: a
failure delivers no value, a fresh payload delivers itself, and an answer that nothing has changed
delivers the data of `current` once more.

The request is told of `current` only after a check, but the answer uses it without one:
`onlyRevalidates_iff` says when that matters.
-/

set_option autoImplicit false

namespace Statsig

variable (p : Platform) (lib : JsonText)

/-! ## Kinds of responses -/

/-- What a final response says. -/
inductive ResponseKind where
  /-- The fetch has failed. -/
  | failed
  /-- Here is a payload. -/
  | fresh
  /-- The payload that the client has is still good. -/
  | notModified
  deriving DecidableEq, Repr

/-- The kind of a final response, as the code tells them apart. -/
def HttpResponse.kind (response : HttpResponse) : ResponseKind :=
  if !hasSuccessCode response then .failed
  else if response.status = 204 then .notModified
  else
    match initializeResponse.decode p lib response.text with
    | none => .failed
    | some data => if data.hasUpdates then .fresh else .notModified

namespace DataAdapter

open NetworkService

variable {p lib} (user : StatsigUser) (current : Option DataAdapterResult) (now : Int64)
  {response : HttpResponse}

theorem fetchLatest_of_failed (h : response.kind p lib = .failed) :
    (fetchLatest p user current now (handleFetchValuesResponse p lib response)).code ≠ .ok ∧
      (fetchLatest p user current now (handleFetchValuesResponse p lib response)).value = none := by
  simp only [HttpResponse.kind] at h
  simp only [handleFetchValuesResponse]
  split at h
  · rename_i hfail
    rw [if_pos hfail]
    simp [fetchLatest]
  · rename_i hsuccess
    rw [if_neg hsuccess]
    split at h
    · exact absurd h (by simp)
    · rename_i hstatus
      rw [if_neg hstatus]
      cases hdecode : initializeResponse.decode p lib response.text with
      | none => simp [fetchLatest]
      | some data =>
        rw [hdecode] at h
        dsimp only at h
        split at h <;> exact absurd h (by simp)

theorem fetchLatest_of_fresh (h : response.kind p lib = .fresh) :
    fetchLatest p user current now (handleFetchValuesResponse p lib response) =
        { code := .ok
          value := some { source := .network, data := response.text, receivedAt := now,
                          fullUserHash := getFullUserHash p user } } ∧
      (initializeResponse.decode p lib response.text).isSome = true := by
  simp only [HttpResponse.kind] at h
  simp only [handleFetchValuesResponse]
  split at h
  · exact absurd h (by simp)
  · rename_i hsuccess
    rw [if_neg hsuccess]
    split at h
    · exact absurd h (by simp)
    · rename_i hstatus
      rw [if_neg hstatus]
      cases hdecode : initializeResponse.decode p lib response.text with
      | none =>
        rw [hdecode] at h
        exact absurd h (by simp)
      | some data =>
        rw [hdecode] at h
        dsimp only at h
        split at h
        · rename_i hupdates
          simp [fetchLatest, hupdates]
        · exact absurd h (by simp)

theorem fetchLatest_of_notModified (h : response.kind p lib = .notModified) :
    fetchLatest p user current now (handleFetchValuesResponse p lib response) =
      { code := .ok
        value := some { source := .networkNotModified
                        data := (current.map DataAdapterResult.data).getD []
                        receivedAt := now, fullUserHash := getFullUserHash p user } } := by
  simp only [HttpResponse.kind] at h
  simp only [handleFetchValuesResponse]
  split at h
  · exact absurd h (by simp)
  · rename_i hsuccess
    rw [if_neg hsuccess]
    split at h
    · rename_i hstatus
      rw [if_pos hstatus]
      rfl
    · rename_i hstatus
      rw [if_neg hstatus]
      cases hdecode : initializeResponse.decode p lib response.text with
      | none =>
        rw [hdecode] at h
        exact absurd h (by simp)
      | some data =>
        rw [hdecode] at h
        dsimp only at h
        split at h
        · exact absurd h (by simp)
        · rename_i hupdates
          simp [fetchLatest, hupdates]

/-! ## What is revalidated -/

section Revalidation

variable (p lib) (response)

/-- The lambda of `FetchLatest`, given the final response. -/
def latestOf : StatsigResult DataAdapterResult :=
  fetchLatest p user current now (handleFetchValuesResponse p lib response)

/-- The data are a payload, and the fingerprint is this user's. -/
def GenuineFor (entry : DataAdapterResult) : Prop :=
  (initializeResponse.decode p lib entry.data).isSome = true ∧
    entry.fullUserHash = getFullUserHash p user

/-- An answer that nothing has changed only ever revalidates a valid cached payload. -/
structure OnlyRevalidates : Prop where
  /-- What is passed on as not modified is `current`, and `current` passed the check. -/
  valid : ∀ result, (latestOf p lib user current now response).code = .ok →
    (latestOf p lib user current now response).value = some result →
    result.source = .networkNotModified →
      ∃ c, current = some c ∧
        (deserializeCacheValueIfValidFor204 p lib user (some c)).isSome = true ∧
        result.data = c.data
  /-- What the lambda of `GetDataAsync` inserts is a payload, the response's or one that was cached
  for this very user. -/
  cached : ∀ (r : Rehash Str DataAdapterResult) (adapter : DataAdapter) (key : Str)
    (entry : DataAdapterResult),
    (adapter.onLatest p lib r user
      (latestOf p lib user current now response)).1.inMemoryCache.find? key = some entry →
    adapter.inMemoryCache.find? key = some entry ∨
      (GenuineFor p lib user entry ∧
        (entry.data = response.text ∨
          ∃ c, current = some c ∧ GenuineFor p lib user c ∧ entry.data = c.data))

end Revalidation

theorem isSome_deserializeCacheValueIfValidFor204 :
    (deserializeCacheValueIfValidFor204 p lib user current).isSome = true ↔
      ∃ c, current = some c ∧ GenuineFor p lib user c := by
  cases current with
  | none => simp [deserializeCacheValueIfValidFor204]
  | some c =>
    simp only [deserializeCacheValueIfValidFor204, Option.bind_some, Option.some_inj,
      exists_eq_left', initializeResponse.deserialize_value, GenuineFor]
    by_cases h : getFullUserHash p user = c.fullUserHash
    · simp [h]
    · simp [h, Ne.symm h]

/-- **When a not-modified answer revalidates**: whenever there is a cached payload for this user,
and otherwise only where the response is of another kind. -/
theorem onlyRevalidates_iff (response : HttpResponse) :
    OnlyRevalidates p lib user current now response ↔
      response.kind p lib ≠ .notModified ∨ ∃ c, current = some c ∧ GenuineFor p lib user c := by
  rw [← isSome_deserializeCacheValueIfValidFor204 user current]
  constructor
  · intro h
    refine (Decidable.em (response.kind p lib ≠ .notModified)).imp_right fun hkind ↦ ?_
    have hlatest := fetchLatest_of_notModified user current now (not_not.mp hkind)
    obtain ⟨c, rfl, hvalid, -⟩ := h.valid _ (by rw [latestOf, hlatest]) (by rw [latestOf, hlatest])
      rfl
    exact hvalid
  · intro h
    cases hkind : response.kind p lib with
    | failed =>
      obtain ⟨hcode, hnone⟩ := fetchLatest_of_failed user current now hkind
      refine ⟨fun result hok ↦ absurd hok hcode, fun r adapter key entry hfind ↦ ?_⟩
      refine .inl ((of_find?_onLatest r user hfind).resolve_right fun hvalue ↦ ?_)
      exact absurd (hnone.symm.trans hvalue) (by simp)
    | fresh =>
      obtain ⟨hlatest, hdecode⟩ := fetchLatest_of_fresh user current now hkind
      refine ⟨fun result _ hvalue hsource ↦ ?_, fun r adapter key entry hfind ↦ ?_⟩
      · rw [latestOf, hlatest, Option.some_inj] at hvalue
        subst hvalue
        exact absurd hsource (by simp)
      · refine (of_find?_onLatest r user hfind).imp_right fun hvalue ↦ ?_
        rw [latestOf, hlatest, Option.some_inj] at hvalue
        subst hvalue
        exact ⟨⟨hdecode, rfl⟩, .inl rfl⟩
    | notModified =>
      have hvalid := h.resolve_left (not_not.mpr hkind)
      obtain ⟨c, rfl, hgenuine⟩ :=
        (isSome_deserializeCacheValueIfValidFor204 user current).mp hvalid
      have hlatest := fetchLatest_of_notModified user (some c) now hkind
      refine ⟨fun result _ hvalue _ ↦ ?_, fun r adapter key entry hfind ↦ ?_⟩
      · rw [latestOf, hlatest, Option.some_inj] at hvalue
        subst hvalue
        exact ⟨c, rfl, hvalid, rfl⟩
      · refine (of_find?_onLatest r user hfind).imp_right fun hvalue ↦ ?_
        rw [latestOf, hlatest, Option.some_inj] at hvalue
        subst hvalue
        exact ⟨⟨hgenuine.1, rfl⟩, .inr ⟨c, rfl, hgenuine, rfl⟩⟩

/-- Nothing is cached, and the server answers 204 all the same. -/
theorem not_forall_onlyRevalidates :
    ¬ ∀ (p : Platform) (lib : JsonText) (user : StatsigUser) (current : Option DataAdapterResult)
      (now : Int64) (response : HttpResponse),
      OnlyRevalidates p lib user current now response := by
  intro h
  obtain ⟨c, hc, -⟩ := (h .linux initializeResponse.twoTexts {} none 0 { status := 204 }).valid
    { source := .networkNotModified, data := [], receivedAt := 0,
      fullUserHash := getFullUserHash .linux {} } rfl rfl rfl
  exact absurd hc (by simp)

end DataAdapter

end Statsig
