import Statsig.Lib.Versions
import Statsig.Provenance

/-!
# Asking for what has changed

The adapter of `Provenance`, and a server that publishes one payload after the other for users with
a fingerprint.  A request tells the time of the payload that the adapter has, if it is for this
fingerprint, and the server may answer that it has nothing newer; the adapter then takes its own
payload for the server's.

`fetched_of_run` says that this is right: whatever a fetch ends with is what the server had while
the fetch was in progress, although it may come from the memory of the adapter, from a file, or from
an earlier process.  A write replaces a file as a whole, in one step.
-/

set_option autoImplicit false

namespace Statsig

variable (p : Platform) (lib : JsonText)

/-- What a fetch has ended with, and how much had been published when its request was sent, and when
it ended. -/
structure Fetched where
  user : StatsigUser
  result : DataAdapterResult
  sentAt : ℕ
  endedAt : ℕ
  deriving DecidableEq, Repr

/-- The adapter and the server. -/
structure DeltaRun where
  client : ProvenanceRun
  /-- The payloads that the server has had, each with a user that it was for. -/
  published : List (StatsigUser × Str) := []
  /-- How much had been published when the request of each fetch was sent. -/
  sentAt : List ℕ := []
  fetched : List Fetched := []
  deriving DecidableEq, Repr

inductive DeltaLabel where
  | publish (user : StatsigUser) (text : Str)
  | client (a : ProvenanceLabel)

namespace DeltaRun

/-- A server that has published nothing. -/
def init (sdkKey : Str) (network : NetworkService) : DeltaRun :=
  { client := .init sdkKey network }

/-- What the fetch ends with. -/
def outcome (s : DeltaRun) (i : ℕ) (response : HttpResponse) (now : Int64) : Option Fetched := do
  let fetch ← s.client.fetches[i]?
  let sentAt ← s.sentAt[i]?
  let result ← (DataAdapter.latestOf p lib fetch.user fetch.current now response).value
  return { user := fetch.user, result, sentAt, endedAt := s.published.length }

/-- One step. -/
def step (s : DeltaRun) : DeltaLabel → Option DeltaRun
  | .publish user text => some { s with published := s.published ++ [(user, text)] }
  | .client a => (s.client.step p lib a).map fun client ↦
    match a with
    | .fetchDone i response now _ =>
      { s with client, sentAt := s.sentAt.eraseIdx i
               fetched := s.fetched ++ (s.outcome p lib i response now).toList }
    | .restart _ => { s with client, sentAt := [] }
    | _ =>
      let requests := client.fetches.length - s.client.fetches.length
      { s with client, sentAt := s.sentAt ++ .replicate requests s.published.length }

/-! ## The server -/

/-- Its payloads, by fingerprint. -/
def history (published : List (StatsigUser × Str)) : List (Str × Str) :=
  published.map fun e ↦ (getFullUserHash p e.1, e.2)

/-- The time in a payload. -/
def timeOf (text : Str) : Option Int64 :=
  (initializeResponse.decode p lib text).map InitializeResponse.time

/-- The payload has an earlier time, if it has one. -/
def olderThan (time : Int64) (text : Str) : Bool :=
  (timeOf p lib text).all fun time' ↦ time' < time

/-- What the server may answer when it has published so much: what it has, or that it has nothing
newer than what the request told of.  It may also fail. -/
def Answers (published : List (StatsigUser × Str)) (args : InitializeRequestArgs)
    (response : HttpResponse) : Prop :=
  let current := Versions.current (history p published) (getFullUserHash p args.user)
  (response.kind p lib = .fresh → current = some response.text) ∧
    (response.kind p lib = .notModified →
      args.sinceTime ≠ 0 ∧ ∃ time ∈ current.bind (timeOf p lib), time ≤ args.sinceTime)

instance (published : List (StatsigUser × Str)) (args : InitializeRequestArgs)
    (response : HttpResponse) : Decidable (Answers p lib published args response) :=
  inferInstanceAs (Decidable (_ ∧ _))

/-- What the server does: a payload that it publishes can be read, and is newer than the others for
the same fingerprint, and a request is answered after it was sent. -/
def ServerKeeps (s : DeltaRun) : DeltaLabel → Prop
  | .publish user text => ∃ time ∈ timeOf p lib text,
    ∀ e ∈ s.published, getFullUserHash p e.1 = getFullUserHash p user →
      olderThan p lib time e.2 = true
  | .client (.fetchDone i response _ _) =>
    ∀ fetch ∈ s.client.fetches[i]?, ∀ sentAt ∈ s.sentAt[i]?,
      ∃ moment ≤ s.published.length, sentAt ≤ moment ∧
        Answers p lib (s.published.take moment)
          (s.client.network.fetchValuesArgs p lib fetch.user fetch.current) response
  | .client _ => True

instance (s : DeltaRun) : DecidablePred (ServerKeeps p lib s)
  | .publish user text => inferInstanceAs (Decidable (∃ time ∈ timeOf p lib text,
      ∀ e ∈ s.published, getFullUserHash p e.1 = getFullUserHash p user →
        olderThan p lib time e.2 = true))
  | .client (.fetchDone i response _ _) => inferInstanceAs (Decidable
      (∀ fetch ∈ s.client.fetches[i]?, ∀ sentAt ∈ s.sentAt[i]?,
        ∃ moment ≤ s.published.length, sentAt ≤ moment ∧
          Answers p lib (s.published.take moment)
            (s.client.network.fetchValuesArgs p lib fetch.user fetch.current) response))
  | .client (.getDataSync _ _) | .client (.getDataAsync _ _ _) | .client (.writeDone _ _ _)
  | .client (.otherWrite _ _ _ _) | .client (.remove _) | .client (.restart _) => .isTrue trivial

/-! ## What is known -/

/-- The times of the server's payloads, as numbers. -/
def timeNumber (text : Str) : Option ℤ := (timeOf p lib text).map Int64.toInt

/-- How much had been published when the request was sent, and what it tells of had been. -/
def Told (published : List (StatsigUser × Str)) (fetch : Fetch) (sentAt : ℕ) : Prop :=
  sentAt ≤ published.length ∧
    ∀ c, fetch.current = some c → ProvenanceRun.Sent p (published.take sentAt) c

/-- The fetch gave what the server had for the user while it was in progress. -/
def Fresh (published : List (StatsigUser × Str)) (fetched : Fetched) : Prop :=
  fetched.result.fullUserHash = getFullUserHash p fetched.user ∧
    Versions.ReadDuring (history p published) fetched.sentAt fetched.endedAt
      (getFullUserHash p fetched.user) fetched.result.data

structure Inv (s : DeltaRun) : Prop where
  client : ProvenanceRun.Inv p lib { s.client with answered := s.published }
  stamps : s.sentAt.length = s.client.fetches.length
  told : ∀ (i : ℕ) (fetch : Fetch) (sentAt : ℕ), s.client.fetches[i]? = some fetch →
    s.sentAt[i]? = some sentAt → Told p s.published fetch sentAt
  readable : ∀ e ∈ s.published, ∃ time, timeOf p lib e.2 = some time
  increasing : Versions.Increasing (timeNumber p lib) (history p s.published)
  ended : ∀ fetched ∈ s.fetched, fetched.endedAt ≤ s.published.length
  fresh : ∀ fetched ∈ s.fetched, Fresh p s.published fetched

section Steps

variable {p lib} {published : List (StatsigUser × Str)} {fetch : Fetch} {sentAt : ℕ}

theorem history_take (moment : ℕ) :
    history p (published.take moment) = (history p published).take moment := List.map_take

theorem mem_history_of_sent {c : DataAdapterResult} (h : ProvenanceRun.Sent p published c) :
    (c.fullUserHash, c.data) ∈ history p published := by
  obtain ⟨e, he, hhash, hdata⟩ := h
  exact List.mem_map.mpr ⟨e, he, by rw [hhash, hdata]⟩

theorem sent_of_mem_history {c : DataAdapterResult}
    (h : (c.fullUserHash, c.data) ∈ history p published) : ProvenanceRun.Sent p published c := by
  obtain ⟨e, he, heq⟩ := List.mem_map.mp h
  obtain ⟨hhash, hdata⟩ := Prod.mk_inj.mp heq
  exact ⟨e, he, hhash, hdata⟩

theorem Told.append (h : Told p published fetch sentAt) (e : StatsigUser × Str) :
    Told p (published ++ [e]) fetch sentAt := by
  refine ⟨h.1.trans (by simp), fun c hc ↦ ?_⟩
  rw [List.take_append_of_le_length h.1]
  exact h.2 c hc

theorem Fresh.append {fetched : Fetched} (h : Fresh p published fetched)
    (hended : fetched.endedAt ≤ published.length) (e : StatsigUser × Str) :
    Fresh p (published ++ [e]) fetched := by
  refine ⟨h.1, ?_⟩
  rw [history, List.map_append]
  exact h.2.append (by rwa [history, List.length_map])

/-- What the request says of the payload that it tells of. -/
theorem sinceTime_of_ne_zero {net : NetworkService} {user : StatsigUser}
    {current : Option DataAdapterResult}
    (h : (net.fetchValuesArgs p lib user current).sinceTime ≠ 0) :
    ∃ c, current = some c ∧ c.fullUserHash = getFullUserHash p user ∧
      timeOf p lib c.data = some (net.fetchValuesArgs p lib user current).sinceTime := by
  simp only [NetworkService.fetchValuesArgs] at h ⊢
  have hvalid : (NetworkService.deserializeCacheValueIfValidFor204 p lib user current).isSome =
      true := by
    by_contra hnone
    rw [Bool.not_eq_true, Option.isSome_eq_false_iff, Option.isNone_iff_eq_none] at hnone
    exact h (by rw [hnone]; rfl)
  obtain ⟨c, rfl, -, hhash⟩ :=
    (DataAdapter.isSome_deserializeCacheValueIfValidFor204 user current).mp hvalid
  refine ⟨c, rfl, hhash, ?_⟩
  obtain ⟨values, hvalues⟩ := Option.isSome_iff_exists.mp hvalid
  have hdecode : initializeResponse.decode p lib c.data = some values := by
    rw [← initializeResponse.deserialize_value, ← hvalues]
    simp [NetworkService.deserializeCacheValueIfValidFor204, hhash]
  rw [hvalues] at h ⊢
  cases hupdates : values.hasUpdates with
  | true => simp [timeOf, hdecode, Option.filter, hupdates]
  | false => exact absurd (by simp [Option.filter, hupdates]) h

/-- **What a fetch ends with is what the server had when it answered.** -/
theorem current_of_latestOf {net : NetworkService} {now : Int64} {response : HttpResponse}
    {result : DataAdapterResult} {moment : ℕ} (htold : Told p published fetch sentAt)
    (hincreasing : Versions.Increasing (timeNumber p lib) (history p published))
    (hmoment : sentAt ≤ moment)
    (hanswers : Answers p lib (published.take moment)
      (net.fetchValuesArgs p lib fetch.user fetch.current) response)
    (h : (DataAdapter.latestOf p lib fetch.user fetch.current now response).value = some result) :
    result.fullUserHash = getFullUserHash p fetch.user ∧
      Versions.current ((history p published).take moment) (getFullUserHash p fetch.user) =
        some result.data := by
  rw [Answers, history_take] at hanswers
  cases hkind : response.kind p lib with
  | failed =>
    have hnone := (DataAdapter.fetchLatest_of_failed fetch.user fetch.current now hkind).2
    exact absurd (hnone.symm.trans h) (by simp)
  | fresh =>
    rw [DataAdapter.latestOf, (DataAdapter.fetchLatest_of_fresh fetch.user fetch.current now
      hkind).1, Option.some_inj] at h
    subst h
    exact ⟨rfl, hanswers.1 hkind⟩
  | notModified =>
    obtain ⟨hsince, time, htime, hle⟩ := hanswers.2 hkind
    obtain ⟨text, hcurrent, htext⟩ := Option.bind_eq_some_iff.mp htime
    obtain ⟨c, hc, hhash, hctime⟩ := sinceTime_of_ne_zero hsince
    rw [DataAdapter.latestOf, DataAdapter.fetchLatest_of_notModified fetch.user fetch.current now
      hkind, Option.some_inj, hc] at h
    subst h
    -- the server has nothing newer than what the request told of, so it has just that
    have hmem : (getFullUserHash p fetch.user, c.data) ∈ (history p published).take moment := by
      have hsent := mem_history_of_sent (htold.2 c hc)
      rw [hhash, history_take] at hsent
      exact List.take_subset_take_left _ hmoment hsent
    obtain rfl := Versions.eq_current_of_le (hincreasing.sublist (List.take_sublist moment _)) hmem
      hcurrent (by rw [timeNumber, hctime]; rfl) (by rw [timeNumber, htext]; rfl)
      (Int64.le_iff_toInt_le.mp hle)
    exact ⟨rfl, hcurrent⟩

/-! ## Steps -/

section Client

variable {s t : ProvenanceRun} {a : ProvenanceLabel}

/-- Only the answer to a fetch is on record. -/
theorem step_withAnswered (published : List (StatsigUser × Str))
    (ha : ∀ i response now r, a ≠ .fetchDone i response now r) (h : s.step p lib a = some t) :
    ({ s with answered := published } : ProvenanceRun).step p lib a =
      some { t with answered := published } := by
  cases a with
  | fetchDone i response now r => exact absurd rfl (ha i response now r)
  | getDataAsync user current r =>
    simp only [ProvenanceRun.step] at h ⊢
    split at h
    · rename_i hgiven
      rw [if_pos hgiven]
      split at h <;> obtain rfl := Option.some_inj.mp h <;> rfl
    · exact absurd h (by simp)
  | writeDone i now r =>
    obtain ⟨write, hwrite, rfl⟩ := Option.map_eq_some_iff.mp h
    simp only [ProvenanceRun.step, hwrite, Option.map_some]
    rfl
  | otherWrite name content now r =>
    simp only [ProvenanceRun.step] at h ⊢
    split at h
    · exact absurd h (by simp)
    · rename_i hname
      obtain rfl := Option.some_inj.mp h
      rw [if_neg hname]
  | getDataSync user r | remove name | restart network =>
    obtain rfl := Option.some_inj.mp h
    rfl

theorem fetches_of_step (ha : ∀ i response now r, a ≠ .fetchDone i response now r)
    (hrestart : ∀ network, a ≠ .restart network) (h : s.step p lib a = some t) :
    ∃ requests, t.fetches = s.fetches ++ requests := by
  cases a with
  | fetchDone i response now r => exact absurd rfl (ha i response now r)
  | restart network => exact absurd rfl (hrestart network)
  | getDataAsync user current r =>
    simp only [ProvenanceRun.step] at h
    split at h
    · split at h <;> obtain rfl := Option.some_inj.mp h
      · exact ⟨[], (List.append_nil _).symm⟩
      · exact ⟨_, rfl⟩
    · exact absurd h (by simp)
  | writeDone i now r =>
    obtain ⟨write, -, rfl⟩ := Option.map_eq_some_iff.mp h
    exact ⟨[], (List.append_nil _).symm⟩
  | otherWrite name content now r =>
    simp only [ProvenanceRun.step] at h
    split at h
    · exact absurd h (by simp)
    · obtain rfl := Option.some_inj.mp h
      exact ⟨[], (List.append_nil _).symm⟩
  | getDataSync user r | remove name =>
    obtain rfl := Option.some_inj.mp h
    exact ⟨[], (List.append_nil _).symm⟩

/-- **The answer to a fetch**, when what it is passed on as has been published. -/
theorem client_fetchDone {i : ℕ} {response : HttpResponse} {now : Int64}
    {r : Rehash Str DataAdapterResult}
    (hs : ProvenanceRun.Inv p lib { s with answered := published })
    (hlatest : ∀ fetch, s.fetches[i]? = some fetch → ∀ value,
      (DataAdapter.latestOf p lib fetch.user fetch.current now response).value = some value →
        ProvenanceRun.Sent p published value)
    (h : s.step p lib (.fetchDone i response now r) = some t) :
    ProvenanceRun.Inv p lib { t with answered := published } ∧
      t.fetches = s.fetches.eraseIdx i := by
  obtain ⟨fetch, hfetch, rfl⟩ := Option.map_eq_some_iff.mp h
  have hvalue := hlatest fetch hfetch
  have hmemory : (s.adapter.onLatest p lib r fetch.user
      (DataAdapter.latestOf p lib fetch.user fetch.current now response)).1.Cached
        (ProvenanceRun.Sent p published) := hs.memory.onLatest r fetch.user hvalue
  have hcases := ProvenanceRun.onLatest_cases p lib s.adapter r fetch.user
    (DataAdapter.latestOf p lib fetch.user fetch.current now response)
  dsimp only
  generalize DataAdapter.onLatest p lib r s.adapter fetch.user
    (DataAdapter.latestOf p lib fetch.user fetch.current now response) = x at hmemory hcases ⊢
  obtain ⟨adapter, delivery⟩ := x
  have hfiles : ProvenanceRun.FilesHold lib (ProvenanceRun.Sent p published) adapter.dir := by
    rcases hcases with ⟨hdir, -⟩ | ⟨hdir, -⟩
    · exact hdir ▸ hs.files
    · exact hdir ▸ hs.files.of_find? fun _ _ ↦ File.of_find?_runCacheEviction
  have hbase : ProvenanceRun.Inv p lib
      { s with adapter, fetches := s.fetches.eraseIdx i, answered := published } :=
    { hs with
      memory := hmemory
      files := hfiles
      fetches := Slots.forall_mem_eraseIdx hs.fetches }
  rcases hcases with ⟨-, result, hresult, rfl⟩ | ⟨-, rfl | ⟨value, cacheKey, content, hlast,
    hcontent, rfl⟩⟩
  · exact ⟨hbase.deliver fun value hv ↦ hvalue value (hresult ▸ hv), rfl⟩
  · exact ⟨hbase, rfl⟩
  · refine ⟨{ hbase with
      writes := Slots.forall_mem_append_singleton hbase.writes ⟨?_, hvalue⟩ }, rfl⟩
    intro result hread
    rw [dataAdapterResult.deserialize_serialize hcontent, Option.some_inj] at hread
    exact hread ▸ hvalue value hlast

end Client

end Steps

section Runs

variable {p lib}

theorem inv_publish {s : DeltaRun} {user : StatsigUser} {text : Str} (hs : Inv p lib s)
    (hok : ServerKeeps p lib s (.publish user text)) :
    Inv p lib { s with published := s.published ++ [(user, text)] } where
  client := hs.client.answer (user, text)
  stamps := hs.stamps
  told := fun i fetch sentAt hfetch hsent ↦ (hs.told i fetch sentAt hfetch hsent).append _
  readable := Slots.forall_mem_append_singleton hs.readable
    (hok.imp fun _ htime ↦ htime.1)
  increasing := by
    obtain ⟨time, htime, hlater⟩ := hok
    rw [history, List.map_append]
    refine List.pairwise_append.mpr ⟨hs.increasing, List.pairwise_singleton _ _, ?_⟩
    intro e he e' he' hkey t t' ht ht'
    obtain ⟨published, hpublished, rfl⟩ := List.mem_map.mp he
    obtain rfl := List.mem_singleton.mp he'
    obtain ⟨time', htime', rfl⟩ := Option.map_eq_some_iff.mp ht
    obtain ⟨time'', htime'', rfl⟩ := Option.map_eq_some_iff.mp ht'
    obtain rfl := Option.some_inj.mp (htime.symm.trans htime'')
    have holder := hlater published hpublished hkey
    rw [olderThan, htime'] at holder
    exact Int64.lt_iff_toInt_lt.mp (of_decide_eq_true holder)
  ended := fun fetched h ↦ (hs.ended fetched h).trans (by simp)
  fresh := fun fetched h ↦ (hs.fresh fetched h).append (hs.ended fetched h) _

theorem inv_fetchDone {s t : DeltaRun} {i : ℕ} {response : HttpResponse} {now : Int64}
    {r : Rehash Str DataAdapterResult} (hs : Inv p lib s)
    (hok : ServerKeeps p lib s (.client (.fetchDone i response now r)))
    (h : s.step p lib (.client (.fetchDone i response now r)) = some t) : Inv p lib t := by
  obtain ⟨client, hclient, rfl⟩ := Option.map_eq_some_iff.mp h
  have hended : ∀ fetch sentAt, s.client.fetches[i]? = some fetch → s.sentAt[i]? = some sentAt →
      ∀ value, (DataAdapter.latestOf p lib fetch.user fetch.current now response).value =
        some value → Fresh p s.published ⟨fetch.user, value, sentAt, s.published.length⟩ := by
    intro fetch sentAt hfetch hsent value hvalue
    obtain ⟨moment, hmoment, hle, hanswers⟩ := hok fetch hfetch sentAt hsent
    obtain ⟨hhash, hcurrent⟩ :=
      current_of_latestOf (hs.told i fetch sentAt hfetch hsent) hs.increasing hle hanswers hvalue
    exact ⟨hhash, moment, hle, hmoment, hcurrent⟩
  have hlatest : ∀ fetch, s.client.fetches[i]? = some fetch → ∀ value,
      (DataAdapter.latestOf p lib fetch.user fetch.current now response).value = some value →
        ProvenanceRun.Sent p s.published value := by
    intro fetch hfetch value hvalue
    have hlt : i < s.sentAt.length := hs.stamps ▸ (List.getElem?_eq_some_iff.mp hfetch).1
    obtain ⟨hhash, moment, -, -, hcurrent⟩ :=
      hended fetch _ hfetch (List.getElem?_eq_getElem hlt) value hvalue
    refine sent_of_mem_history (List.take_subset moment _ ?_)
    rw [hhash]
    exact Versions.mem_of_current hcurrent
  obtain ⟨hinv, hfetches⟩ := client_fetchDone hs.client hlatest hclient
  have houtcome : ∀ fetched ∈ s.outcome p lib i response now,
      fetched.endedAt = s.published.length ∧ Fresh p s.published fetched := by
    intro fetched hfetched
    obtain ⟨fetch, hfetch, hfetched⟩ := Option.bind_eq_some_iff.mp hfetched
    obtain ⟨sentAt, hsent, hfetched⟩ := Option.bind_eq_some_iff.mp hfetched
    obtain ⟨value, hvalue, hfetched⟩ := Option.bind_eq_some_iff.mp hfetched
    obtain rfl := Option.some_inj.mp hfetched
    exact ⟨rfl, hended fetch sentAt hfetch hsent value hvalue⟩
  refine ⟨hinv, ?_, ?_, hs.readable, hs.increasing, ?_, ?_⟩
  · simp only [hfetches, List.length_eraseIdx, hs.stamps]
  · intro j fetch sentAt hfetch hsent
    simp only [hfetches, List.getElem?_eraseIdx] at hfetch hsent
    split at hfetch <;> rename_i hj
    · exact hs.told j fetch sentAt hfetch (by rwa [if_pos hj] at hsent)
    · exact hs.told (j + 1) fetch sentAt hfetch (by rwa [if_neg hj] at hsent)
  · intro fetched hfetched
    rcases List.mem_append.mp hfetched with hold | hnew
    · exact hs.ended fetched hold
    · exact (houtcome fetched (Option.mem_toList.mp hnew)).1.le
  · intro fetched hfetched
    rcases List.mem_append.mp hfetched with hold | hnew
    · exact hs.fresh fetched hold
    · exact (houtcome fetched (Option.mem_toList.mp hnew)).2

theorem inv_request {s : DeltaRun} {client : ProvenanceRun} {requests : List Fetch}
    (hs : Inv p lib s) (hclient : ProvenanceRun.Inv p lib { client with answered := s.published })
    (hfetches : client.fetches = s.client.fetches ++ requests) :
    Inv p lib { s with
      client, sentAt := s.sentAt ++ .replicate requests.length s.published.length } := by
  refine { hs with client := hclient, stamps := ?_, told := ?_ }
  · simp [hfetches, hs.stamps]
  · intro i fetch sentAt hfetch hsent
    simp only [hfetches] at hfetch
    by_cases hi : i < s.client.fetches.length
    · rw [List.getElem?_append_left hi] at hfetch
      rw [List.getElem?_append_left (hs.stamps ▸ hi)] at hsent
      exact hs.told i fetch sentAt hfetch hsent
    · have hi' : s.sentAt.length ≤ i := hs.stamps ▸ Nat.le_of_not_lt hi
      rw [List.getElem?_append_right hi'] at hsent
      obtain rfl := List.eq_of_mem_replicate (List.mem_of_getElem? hsent)
      refine ⟨Nat.le_refl _, fun c hc ↦ ?_⟩
      rw [List.take_length]
      refine hclient.fetches fetch ?_ c hc
      show fetch ∈ client.fetches
      rw [hfetches]
      exact List.mem_of_getElem? hfetch

theorem inv_restart {s : DeltaRun} {client : ProvenanceRun} (hs : Inv p lib s)
    (hclient : ProvenanceRun.Inv p lib { client with answered := s.published })
    (hfetches : client.fetches = []) : Inv p lib { s with client, sentAt := [] } := by
  refine { hs with client := hclient, stamps := ?_, told := fun i fetch sentAt hfetch ↦ ?_ }
  · simp [hfetches]
  · simp [hfetches] at hfetch

/-- **Steps.** -/
theorem inv_step {s t : DeltaRun} {a : DeltaLabel} (hs : Inv p lib s)
    (hok : ServerKeeps p lib s a) (h : s.step p lib a = some t) : Inv p lib t := by
  cases a with
  | publish user text =>
    obtain rfl := Option.some_inj.mp h
    exact inv_publish hs hok
  | client a =>
    by_cases hdone : ∃ i response now r, a = .fetchDone i response now r
    · obtain ⟨i, response, now, r, rfl⟩ := hdone
      exact inv_fetchDone hs hok h
    · have ha : ∀ i response now r, a ≠ .fetchDone i response now r :=
        fun i response now r heq ↦ hdone ⟨i, response, now, r, heq⟩
      obtain ⟨client, hclient, rfl⟩ := Option.map_eq_some_iff.mp h
      have hinv : ProvenanceRun.Inv p lib { client with answered := s.published } := by
        have hstep := step_withAnswered s.published ha hclient
        refine ProvenanceRun.inv_step p lib hs.client ?_ hstep
        cases a with
        | fetchDone i response now r => exact absurd rfl (ha i response now r)
        | _ => trivial
      by_cases hrestart : ∃ network, a = .restart network
      · obtain ⟨network, rfl⟩ := hrestart
        obtain rfl := Option.some_inj.mp hclient
        exact inv_restart hs hinv rfl
      · obtain ⟨requests, hfetches⟩ :=
          fetches_of_step ha (fun network heq ↦ hrestart ⟨network, heq⟩) hclient
        have hrequests := inv_request hs hinv hfetches
        have hcount : client.fetches.length - s.client.fetches.length = requests.length := by
          simp [hfetches]
        cases a with
        | fetchDone i response now r => exact absurd rfl (ha i response now r)
        | restart network => exact absurd ⟨network, rfl⟩ hrestart
        | _ =>
          simp only [hcount]
          exact hrequests

/-- What was published can be read. -/
theorem timeOf_of_readDuring {published : List (StatsigUser × Str)} {key text : Str}
    {started ended : ℕ}
    (hreadable : ∀ e ∈ published, ∃ time, timeOf p lib e.2 = some time)
    (h : Versions.ReadDuring (history p published) started ended key text) :
    ∃ time, timeOf p lib text = some time := by
  obtain ⟨moment, -, -, hcurrent⟩ := h
  obtain ⟨e, he, heq⟩ :=
    List.mem_map.mp (List.take_subset _ _ (Versions.mem_of_current hcurrent))
  obtain ⟨-, rfl⟩ := Prod.mk_inj.mp heq
  exact hreadable e he

theorem inv_init (sdkKey : Str) (network : NetworkService) : Inv p lib (init sdkKey network) where
  client := ProvenanceRun.inv_init p lib sdkKey network
  stamps := rfl
  told := fun i fetch sentAt h ↦ absurd h (by simp [init, ProvenanceRun.init])
  readable := fun e h ↦ absurd h (by simp [init])
  increasing := List.Pairwise.nil
  ended := fun fetched h ↦ absurd h (by simp [init])
  fresh := fun fetched h ↦ absurd h (by simp [init])

end Runs

/-- **Whatever a fetch ends with is what the server had while it was in progress**, for every order
of requests, answers, publications, file writes, evictions and restarts: the data are labelled with
the user's fingerprint, and were the server's latest for it at some moment after the request was
sent and before the fetch ended.  So of two fetches for one fingerprint, one of which was sent after
the other had ended, the later one does not give an older payload. -/
theorem fetched_of_run {sdkKey : Str} {network : NetworkService} {labels : List DeltaLabel}
    {s : DeltaRun} (hrun : Machine.run (step p lib) (init sdkKey network) labels = some s)
    (hok : Machine.AllSteps (step p lib) (ServerKeeps p lib) (init sdkKey network) labels) :
    (∀ fetched ∈ s.fetched, Fresh p s.published fetched) ∧
      ∀ first ∈ s.fetched, ∀ second ∈ s.fetched,
        getFullUserHash p first.user = getFullUserHash p second.user →
        first.endedAt ≤ second.sentAt →
          ∃ time time', timeOf p lib first.result.data = some time ∧
            timeOf p lib second.result.data = some time' ∧ time ≤ time' := by
  have hs : Inv p lib s := Machine.run_induct inv_step (inv_init sdkKey network) hok hrun
  refine ⟨hs.fresh, fun first hfirst second hsecond hhash hafter ↦ ?_⟩
  have hread := (hs.fresh first hfirst).2
  have hread' := (hs.fresh second hsecond).2
  obtain ⟨time, htime⟩ := timeOf_of_readDuring hs.readable hread
  obtain ⟨time', htime'⟩ := timeOf_of_readDuring hs.readable hread'
  refine ⟨time, time', htime, htime', Int64.le_iff_toInt_le.mpr ?_⟩
  exact hread.le (hhash ▸ hread') hafter hs.increasing (by rw [timeNumber, htime]; rfl)
    (by rw [timeNumber, htime']; rfl)

/-- A payload is fetched, written, and revalidated while the server publishes another one. -/
def revalidatedLate : List DeltaLabel :=
  [.publish AdapterRun.aUser (initializeResponse.emptyText 1),
   .client (.getDataAsync AdapterRun.aUser none (Rehash.id _ _)),
   .client (.fetchDone 0 { text := initializeResponse.emptyText 1, status := 200 } 1
     (Rehash.id _ _)),
   .client (.writeDone 0 1 (Rehash.id _ _)),
   .client (.getDataAsync AdapterRun.aUser none (Rehash.id _ _)),
   .publish AdapterRun.aUser (initializeResponse.emptyText 2),
   .client (.fetchDone 0 { status := 204 } 2 (Rehash.id _ _))]

theorem fetched_revalidatedLate :
    ∃ s, Machine.run (step .linux initializeResponse.twoTexts)
        (init (str "key") ⟨str "session", str "stable"⟩) revalidatedLate = some s ∧
      s.fetched.map (fun fetched ↦ (fetched.result.source, fetched.sentAt, fetched.endedAt)) =
        [(.network, 1, 1), (.networkNotModified, 1, 2)] ∧
      ∀ fetched ∈ s.fetched, Fresh .linux s.published fetched := by
  have hrun : (Machine.run (step .linux initializeResponse.twoTexts)
      (init (str "key") ⟨str "session", str "stable"⟩) revalidatedLate).map
        (fun s ↦ s.fetched.map fun fetched ↦
          (fetched.result.source, fetched.sentAt, fetched.endedAt)) =
      some [(.network, 1, 1), (.networkNotModified, 1, 2)] := by
    decide +kernel
  obtain ⟨s, hs, hfetched⟩ := Option.map_eq_some_iff.mp hrun
  exact ⟨s, hs, hfetched,
    (fetched_of_run .linux initializeResponse.twoTexts hs (by decide +kernel)).1⟩

end DeltaRun

end Statsig
