import Statsig.Lib.Slots
import Statsig.Revalidation

/-!
# Where cached evaluations come from

The runs of one data adapter over several processes: calls of `GetDataSync` and `GetDataAsync`, the
answers of the server, the writes of the cache files, each as a whole, and restarts, which keep
nothing but the files.

`genuine_of_run` says that whatever the adapter holds or delivers was sent by the server, for a user
with the fingerprint it is labelled with.  A payload that is revalidated gets a new label, so this
depends on the server, which has to believe what a request says about the time of its payload: the
request tells of a payload only if its label is the user's.
-/

set_option autoImplicit false

namespace Statsig

variable (p : Platform) (lib : JsonText)

/-! ## The file format -/

namespace dataAdapterResult

variable {lib}

theorem fromJson_dumped_toJson (res : DataAdapterResult) :
    fromJson (toJson res).dumped = some res := by
  have hdumped : (toJson res).dumped = toJson res := by
    rw [toJson, Json.dumped_ofFields (by simp; decide)]
    simp
  have hfind : ∀ k, (toJson res).find? k = (lookupKey k
      [(str "source", some (.int res.source.toInt)), (str "data", some (.str res.data)),
       (str "receivedAt", some (.int res.receivedAt.toInt)),
       (str "fullUserHash", some (.str res.fullUserHash))]).join :=
    Json.find?_ofFields (by simp; decide)
  have hhash : ((toJson res).find? (str "fullUserHash")).bind Json.getStr =
      some res.fullUserHash := by
    rw [hfind]
    rfl
  have hreceived : ((toJson res).find? (str "receivedAt")).bind Json.getInt64 =
      some res.receivedAt := by
    rw [hfind]
    show some (Int64.ofInt res.receivedAt.toInt) = _
    rw [Int64.ofInt_toInt]
  have hsource : ((toJson res).find? (str "source")).bind Json.getEnum =
      some (Int32.ofInt res.source.toInt) := by
    rw [hfind]
    rfl
  have hdata : ((toJson res).find? (str "data")).bind Json.getStr = some res.data := by
    rw [hfind]
    rfl
  have henum : ValueSource.ofInt (Int32.ofInt res.source.toInt) = res.source := by
    cases res.source <;> rfl
  simp only [fromJson, hdumped, hhash, hreceived, hsource, hdata, Option.bind_eq_bind,
    Option.bind_some, henum]
  rfl

/-- **A result that was written reads back.** -/
theorem deserialize_serialize {res : DataAdapterResult} {text : Str}
    (h : (serialize lib res).bind StatsigResult.value = some text) :
    deserialize lib text = { code := .ok, value := some res } := by
  obtain ⟨serialized, hserialized, hvalue⟩ := Option.bind_eq_some_iff.mp h
  obtain ⟨dumped, hdump, rfl⟩ := Option.map_eq_some_iff.mp hserialized
  obtain rfl := Option.some_inj.mp hvalue
  rw [deserialize, lib.parse_of_dump hdump, Option.bind_some, fromJson_dumped_toJson]

end dataAdapterResult

/-! ## The machine -/

/-- A cache file that is to be written, with the result that is delivered afterwards. -/
structure CacheWrite where
  cacheKey : Str
  content : Str
  latest : StatsigResult DataAdapterResult
  deriving DecidableEq, Repr

/-- An adapter with its network, the requests and writes on their way, what it has delivered, and a
record of the server's answers, and for whom they were asked. -/
structure ProvenanceRun where
  adapter : DataAdapter
  network : NetworkService
  fetches : List Fetch := []
  writes : List CacheWrite := []
  delivered : List DataAdapterResult := []
  answered : List (StatsigUser × Str) := []
  deriving DecidableEq, Repr

/-- What can happen to an adapter and its directory. -/
inductive ProvenanceLabel where
  | getDataSync (user : StatsigUser) (r : Rehash Str DataAdapterResult)
  | getDataAsync (user : StatsigUser) (current : Option DataAdapterResult)
      (r : Rehash Str DataAdapterResult)
  | fetchDone (i : ℕ) (response : HttpResponse) (now : Int64) (r : Rehash Str DataAdapterResult)
  | writeDone (i : ℕ) (now : ℤ) (r : Rehash Str CacheFile)
  /-- Another component writes a file of its own. -/
  | otherWrite (name content : Str) (now : ℤ) (r : Rehash Str CacheFile)
  | remove (name : Str)
  /-- A new process, with a new network. -/
  | restart (network : NetworkService)

namespace ProvenanceRun

/-- A new adapter, in an empty directory. -/
def init (sdkKey : Str) (network : NetworkService) : ProvenanceRun :=
  { adapter := { sdkKey }, network }

/-- A result is returned, or passed to a callback. -/
def deliver (s : ProvenanceRun) (result : StatsigResult DataAdapterResult) : ProvenanceRun :=
  { s with delivered := s.delivered ++ result.value.toList }

/-- One step. -/
def step (s : ProvenanceRun) : ProvenanceLabel → Option ProvenanceRun
  | .getDataSync user r =>
    let (answer, adapter) := s.adapter.getDataSync p lib r user
    some ({ s with adapter }.deliver answer)
  | .getDataAsync user current r =>
    -- callers only have results that they were given
    if current.all fun c ↦ decide (c ∈ s.delivered) then
      let (current, adapter) := s.adapter.currentFor p lib r user current
      match s.network.fetchValuesBody p lib user current with
      | none => some { s with adapter }
      | some _ => some { s with adapter, fetches := s.fetches ++ [⟨user, current⟩] }
    else none
  | .fetchDone i response now r =>
    (s.fetches[i]?).map fun fetch ↦
      let (adapter, delivery) := s.adapter.onLatest p lib r fetch.user
        (DataAdapter.latestOf p lib fetch.user fetch.current now response)
      let s := { s with
        adapter
        fetches := s.fetches.eraseIdx i
        answered := s.answered ++ [(fetch.user, response.text)] }
      match delivery with
      | .now result => s.deliver result
      | .afterWrite (cacheKey, content) latest =>
        { s with writes := s.writes ++ [⟨cacheKey, content, latest⟩] }
      | .thrown => s
  | .writeDone i now r =>
    (s.writes[i]?).map fun write ↦
      { s with
        adapter := { s.adapter with
          dir := File.writeToCache s.adapter.dir r write.cacheKey write.content now }
        writes := s.writes.eraseIdx i }.deliver write.latest
  | .otherWrite name content now r =>
    if constants.kCachedEvaluationsPrefix <+: name then none
    else some { s with adapter := { s.adapter with
      dir := File.writeToCache s.adapter.dir r name content now } }
  | .remove name =>
    some { s with adapter := { s.adapter with dir := s.adapter.dir.erase name } }
  | .restart network =>
    some { s with
      adapter := { sdkKey := s.adapter.sdkKey, dir := s.adapter.dir }
      network
      fetches := []
      writes := [] }

/-- The server answers that nothing has changed only to a request that told of a payload. -/
def HonestServer (s : ProvenanceRun) : ProvenanceLabel → Prop
  | .fetchDone i response _ _ => ∀ fetch ∈ s.fetches[i]?, response.kind p lib = .notModified →
      (s.network.fetchValuesArgs p lib fetch.user fetch.current).sinceTime ≠ 0
  | _ => True

instance (s : ProvenanceRun) : DecidablePred (HonestServer p lib s)
  | .fetchDone i response _ _ => inferInstanceAs (Decidable (∀ fetch ∈ s.fetches[i]?,
      response.kind p lib = .notModified →
        (s.network.fetchValuesArgs p lib fetch.user fetch.current).sinceTime ≠ 0))
  | .getDataSync _ _ | .getDataAsync _ _ _ | .writeDone _ _ _ | .otherWrite _ _ _ _ | .remove _
  | .restart _ => .isTrue trivial

/-! ## Provenance -/

/-- The server has sent the data, to a request for a user with the fingerprint that the result is
labelled with. -/
def Sent (answered : List (StatsigUser × Str)) (result : DataAdapterResult) : Prop :=
  ∃ e ∈ answered, getFullUserHash p e.1 = result.fullUserHash ∧ e.2 = result.data

/-- What a file with this content is read as has the property. -/
def ContentHolds (P : DataAdapterResult → Prop) (content : Str) : Prop :=
  ∀ result, (dataAdapterResult.deserialize lib content).value = some result → P result

/-- What the files of evaluations are read as has the property. -/
def FilesHold (P : DataAdapterResult → Prop) (dir : CacheDir) : Prop :=
  ∀ name file, dir.find? name = some file → constants.kCachedEvaluationsPrefix <+: name →
    ContentHolds lib P file.content

/-- Everything in memory, in the files and delivered comes from the server. -/
structure Genuine (s : ProvenanceRun) : Prop where
  memory : s.adapter.Cached (Sent p s.answered)
  files : FilesHold lib (Sent p s.answered) s.adapter.dir
  delivered : ∀ result ∈ s.delivered, Sent p s.answered result

/-- And so does everything that is on its way. -/
structure Inv (s : ProvenanceRun) : Prop extends Genuine p lib s where
  fetches : ∀ fetch ∈ s.fetches, ∀ c, fetch.current = some c → Sent p s.answered c
  writes : ∀ write ∈ s.writes, ContentHolds lib (Sent p s.answered) write.content ∧
    ∀ value, write.latest.value = some value → Sent p s.answered value

/-! ## Steps -/

section Steps

variable {p lib} {P Q : DataAdapterResult → Prop} {dir : CacheDir}

theorem FilesHold.mono (h : FilesHold lib P dir) (hPQ : ∀ result, P result → Q result) :
    FilesHold lib Q dir :=
  fun name file hfind hname result hresult ↦ hPQ result (h name file hfind hname result hresult)

theorem FilesHold.of_find? {dir' : CacheDir} (h : FilesHold lib P dir)
    (hsub : ∀ name file, dir'.find? name = some file → dir.find? name = some file) :
    FilesHold lib P dir' :=
  fun name file hfind ↦ h name file (hsub name file hfind)

/-- A write whose content is all right, or whose name is none of the adapter's. -/
theorem FilesHold.writeToCache (h : FilesHold lib P dir) {r : Rehash Str CacheFile}
    {name content : Str} {now : ℤ}
    (hcontent : constants.kCachedEvaluationsPrefix <+: name → ContentHolds lib P content) :
    FilesHold lib P (File.writeToCache dir r name content now) := by
  intro name' file hfind hname'
  by_cases hname : name' = name
  · subst hname
    rw [File.writeToCache, UnorderedMap.find?_emplace_self r (UnorderedMap.find?_erase_self dir _),
      Option.some_inj] at hfind
    subst hfind
    exact hcontent hname'
  · rw [File.writeToCache, UnorderedMap.find?_emplace_of_ne r hname,
      UnorderedMap.find?_erase_of_ne hname] at hfind
    exact h name' file hfind hname'

theorem Sent.mono {answered answered' : List (StatsigUser × Str)} {result : DataAdapterResult}
    (h : Sent p answered result) (hsub : answered ⊆ answered') : Sent p answered' result := by
  obtain ⟨e, he, hresult⟩ := h
  exact ⟨e, hsub he, hresult⟩

theorem FilesHold.read {answered : List (StatsigUser × Str)}
    (h : FilesHold lib (Sent p answered) dir) (sdkKey : Str) (user : StatsigUser)
    {result : DataAdapterResult}
    (hread : (DataAdapter.readFromCacheFile lib dir
      (DataAdapter.getCacheKey p sdkKey user)).value = some result) : Sent p answered result := by
  simp only [DataAdapter.readFromCacheFile, File.readFromCache] at hread
  cases hfind : dir.find? (DataAdapter.getCacheKey p sdkKey user) with
  | none =>
    rw [hfind] at hread
    exact absurd hread (by simp)
  | some file =>
    rw [hfind] at hread
    obtain ⟨written, hwritten, rfl⟩ := Option.map_eq_some_iff.mp hread
    exact h _ file hfind (List.prefix_append _ _) written hwritten

/-- **What an honest answer is passed on as**: its own body, or the data of `current`, which the
server sent for a user with this fingerprint. -/
theorem sent_latestOf {net : NetworkService} {user : StatsigUser}
    {current : Option DataAdapterResult} {answered : List (StatsigUser × Str)}
    (hcurrent : ∀ c, current = some c → Sent p answered c) (now : Int64) {response : HttpResponse}
    (hhonest : response.kind p lib = .notModified →
      (net.fetchValuesArgs p lib user current).sinceTime ≠ 0) {value : DataAdapterResult}
    (h : (DataAdapter.latestOf p lib user current now response).value = some value) :
    Sent p (answered ++ [(user, response.text)]) value := by
  cases hkind : response.kind p lib with
  | failed =>
    have hnone := (DataAdapter.fetchLatest_of_failed user current now hkind).2
    exact absurd (hnone.symm.trans h) (by simp)
  | fresh =>
    rw [DataAdapter.latestOf, (DataAdapter.fetchLatest_of_fresh user current now hkind).1,
      Option.some_inj] at h
    subst h
    exact ⟨(user, response.text), by simp, rfl, rfl⟩
  | notModified =>
    rw [DataAdapter.latestOf, DataAdapter.fetchLatest_of_notModified user current now hkind,
      Option.some_inj] at h
    subst h
    have hvalid : (NetworkService.deserializeCacheValueIfValidFor204 p lib user current).isSome =
        true := by
      by_contra hnone
      rw [Bool.not_eq_true, Option.isSome_eq_false_iff, Option.isNone_iff_eq_none] at hnone
      exact hhonest hkind (by simp [NetworkService.fetchValuesArgs, hnone])
    obtain ⟨c, rfl, -, hhash⟩ :=
      (DataAdapter.isSome_deserializeCacheValueIfValidFor204 user current).mp hvalid
    obtain ⟨e, he, huser, hdata⟩ := hcurrent c rfl
    exact ⟨e, List.mem_append_left _ he, huser.trans hhash, hdata⟩

section Dir

variable (p lib)

theorem dir_getDataSync (adapter : DataAdapter) (r : Rehash Str DataAdapterResult)
    (user : StatsigUser) : (adapter.getDataSync p lib r user).2.dir = adapter.dir := by
  simp only [DataAdapter.getDataSync]
  split
  · rfl
  · split <;> rfl

theorem dir_currentFor (adapter : DataAdapter) (r : Rehash Str DataAdapterResult)
    (user : StatsigUser) (current : Option DataAdapterResult) :
    (adapter.currentFor p lib r user current).2.dir = adapter.dir := by
  cases current with
  | none => exact dir_getDataSync p lib adapter r user
  | some result => rfl

/-- **What the lambda of `GetDataAsync` does beside inserting**: it passes on what it got, and if it
wrote a file, the file holds just that. -/
theorem onLatest_cases (adapter : DataAdapter) (r : Rehash Str DataAdapterResult)
    (user : StatsigUser) (latest : StatsigResult DataAdapterResult) :
    ((adapter.onLatest p lib r user latest).1.dir = adapter.dir ∧
      ∃ result, result.value = latest.value ∧
        (adapter.onLatest p lib r user latest).2 = .now result) ∨
    ((adapter.onLatest p lib r user latest).1.dir =
        File.runCacheEviction adapter.dir constants.kCachedEvaluationsPrefix ∧
      ((adapter.onLatest p lib r user latest).2 = .thrown ∨
        ∃ value cacheKey content, latest.value = some value ∧
          (dataAdapterResult.serialize lib value).bind StatsigResult.value = some content ∧
          (adapter.onLatest p lib r user latest).2 = .afterWrite (cacheKey, content) latest)) := by
  cases hvalue : latest.value with
  | none =>
    simp only [DataAdapter.onLatest, hvalue]
    exact .inl ⟨trivial, _, rfl, rfl⟩
  | some value =>
    simp only [DataAdapter.onLatest, hvalue, DataAdapter.writeToCacheFile]
    by_cases hsource : value.source = .network
    · rw [if_pos hsource]
      refine .inr ⟨rfl, ?_⟩
      cases hcontent : (dataAdapterResult.serialize lib value).bind StatsigResult.value with
      | none => exact .inl rfl
      | some content => exact .inr ⟨value, _, content, rfl, hcontent, rfl⟩
    · rw [if_neg hsource]
      exact .inl ⟨rfl, latest, hvalue, rfl⟩

end Dir

theorem Inv.deliver {s : ProvenanceRun} (hs : Inv p lib s)
    {result : StatsigResult DataAdapterResult}
    (h : ∀ value, result.value = some value → Sent p s.answered value) :
    Inv p lib (s.deliver result) := by
  refine { hs with delivered := fun value hvalue ↦ ?_ }
  rcases List.mem_append.mp hvalue with hvalue | hvalue
  · exact hs.delivered value hvalue
  · exact h value (Option.mem_toList.mp hvalue)

theorem Inv.answer {s : ProvenanceRun} (hs : Inv p lib s) (e : StatsigUser × Str) :
    Inv p lib { s with answered := s.answered ++ [e] } := by
  have hmono : ∀ result, Sent p s.answered result → Sent p (s.answered ++ [e]) result :=
    fun result h ↦ h.mono (List.subset_append_left _ _)
  exact
    { memory := fun key value h ↦ hmono value (hs.memory key value h)
      files := hs.files.mono hmono
      delivered := fun result h ↦ hmono result (hs.delivered result h)
      fetches := fun fetch h c hc ↦ hmono c (hs.fetches fetch h c hc)
      writes := fun write h ↦ ⟨fun result hr ↦ hmono result ((hs.writes write h).1 result hr),
        fun value hv ↦ hmono value ((hs.writes write h).2 value hv)⟩ }

theorem Inv.withDir {s : ProvenanceRun} (hs : Inv p lib s)
    (hfiles : FilesHold lib (Sent p s.answered) dir) :
    Inv p lib { s with adapter := { s.adapter with dir } } :=
  { hs with memory := hs.memory, files := hfiles }

theorem inv_fetchDone {s t : ProvenanceRun} {i : ℕ} {response : HttpResponse} {now : Int64}
    {r : Rehash Str DataAdapterResult} (hs : Inv p lib s)
    (hok : HonestServer p lib s (.fetchDone i response now r))
    (h : step p lib s (.fetchDone i response now r) = some t) : Inv p lib t := by
  obtain ⟨fetch, hfetch, rfl⟩ := Option.map_eq_some_iff.mp h
  have hanswered := hs.answer (fetch.user, response.text)
  have hlatest : ∀ value, (DataAdapter.latestOf p lib fetch.user fetch.current now response).value =
      some value → Sent p (s.answered ++ [(fetch.user, response.text)]) value :=
    fun _ ↦ sent_latestOf (hs.fetches fetch (List.mem_of_getElem? hfetch)) now (hok fetch hfetch)
  have hmemory : (s.adapter.onLatest p lib r fetch.user
      (DataAdapter.latestOf p lib fetch.user fetch.current now response)).1.Cached
        (Sent p (s.answered ++ [(fetch.user, response.text)])) :=
    hanswered.memory.onLatest r fetch.user hlatest
  have hcases := onLatest_cases p lib s.adapter r fetch.user
    (DataAdapter.latestOf p lib fetch.user fetch.current now response)
  dsimp only
  -- the map and the files first, whatever is delivered
  generalize DataAdapter.onLatest p lib r s.adapter fetch.user
    (DataAdapter.latestOf p lib fetch.user fetch.current now response) = x at hmemory hcases ⊢
  obtain ⟨adapter, delivery⟩ := x
  have hfiles : FilesHold lib (Sent p (s.answered ++ [(fetch.user, response.text)]))
      adapter.dir := by
    rcases hcases with ⟨hdir, -⟩ | ⟨hdir, -⟩
    · exact hdir ▸ hanswered.files
    · exact hdir ▸ hanswered.files.of_find? fun _ _ ↦ File.of_find?_runCacheEviction
  have hbase : Inv p lib { s with
      adapter
      fetches := s.fetches.eraseIdx i
      answered := s.answered ++ [(fetch.user, response.text)] } :=
    { hanswered with
      memory := hmemory
      files := hfiles
      fetches := Slots.forall_mem_eraseIdx hanswered.fetches }
  rcases hcases with ⟨-, result, hresult, rfl⟩ | ⟨-, rfl | ⟨value, cacheKey, content, hvalue,
    hcontent, rfl⟩⟩
  · exact hbase.deliver fun value hvalue ↦ hlatest value (hresult ▸ hvalue)
  · exact hbase
  · refine { hbase with writes := Slots.forall_mem_append_singleton hbase.writes ⟨?_, hlatest⟩ }
    intro result hread
    rw [dataAdapterResult.deserialize_serialize hcontent, Option.some_inj] at hread
    exact hread ▸ hlatest value hvalue

end Steps

/-- **Steps.** -/
theorem inv_step {s t : ProvenanceRun} {a : ProvenanceLabel} (hs : Inv p lib s)
    (hok : HonestServer p lib s a) (h : step p lib s a = some t) : Inv p lib t := by
  cases a with
  | getDataSync user r =>
    obtain rfl := Option.some_inj.mp h
    obtain ⟨hanswer, hmemory⟩ := hs.memory.getDataSync r user fun _ ↦ hs.files.read _ user
    have hbase : Inv p lib { s with adapter := (s.adapter.getDataSync p lib r user).2 } :=
      { hs with
        memory := hmemory
        files := (dir_getDataSync p lib s.adapter r user).symm ▸ hs.files }
    exact hbase.deliver hanswer
  | getDataAsync user current r =>
    simp only [step] at h
    split at h
    · rename_i hgiven
      have hgenuine : ∀ c, current = some c → Sent p s.answered c :=
        fun c hc ↦ hs.delivered c (by simpa [hc] using hgiven)
      obtain ⟨hcurrent, hmemory⟩ :=
        hs.memory.currentFor r user hgenuine fun _ ↦ hs.files.read _ user
      have hbase : Inv p lib { s with
          adapter := (s.adapter.currentFor p lib r user current).2 } :=
        { hs with
          memory := hmemory
          files := (dir_currentFor p lib s.adapter r user current).symm ▸ hs.files }
      split at h
      · obtain rfl := Option.some_inj.mp h
        exact hbase
      · obtain rfl := Option.some_inj.mp h
        exact { hbase with fetches := Slots.forall_mem_append_singleton hbase.fetches hcurrent }
    · exact absurd h (by simp)
  | fetchDone i response now r => exact inv_fetchDone hs hok h
  | writeDone i now r =>
    obtain ⟨write, hwrite, rfl⟩ := Option.map_eq_some_iff.mp h
    obtain ⟨hcontent, hlatest⟩ := hs.writes write (List.mem_of_getElem? hwrite)
    refine Inv.deliver (s := { s with
      adapter := { s.adapter with
        dir := File.writeToCache s.adapter.dir r write.cacheKey write.content now }
      writes := s.writes.eraseIdx i }) ?_ hlatest
    exact { hs with
      memory := hs.memory
      files := hs.files.writeToCache fun _ ↦ hcontent
      writes := Slots.forall_mem_eraseIdx hs.writes }
  | otherWrite name content now r =>
    simp only [step] at h
    split at h
    · exact absurd h (by simp)
    · rename_i hname
      obtain rfl := Option.some_inj.mp h
      exact hs.withDir (hs.files.writeToCache fun hprefix ↦ absurd hprefix hname)
  | remove name =>
    obtain rfl := Option.some_inj.mp h
    exact hs.withDir (hs.files.of_find? fun _ _ ↦ UnorderedMap.of_find?_erase)
  | restart network =>
    obtain rfl := Option.some_inj.mp h
    exact { hs with
      memory := fun key value hfind ↦ absurd (show none = some value from hfind) (by simp)
      files := hs.files
      fetches := fun fetch hfetch ↦ absurd hfetch (by simp)
      writes := fun write hwrite ↦ absurd hwrite (by simp) }

theorem inv_init (sdkKey : Str) (network : NetworkService) : Inv p lib (init sdkKey network) where
  memory := fun _ _ h ↦ absurd (show none = some _ from h) (by simp)
  files := fun _ _ h ↦ absurd (show none = some _ from h) (by simp)
  delivered := fun _ h ↦ absurd h (by simp [init])
  fetches := fun _ h ↦ absurd h (by simp [init])
  writes := fun _ h ↦ absurd h (by simp [init])

/-- **Every payload comes from the server, for a user with the fingerprint it is labelled with**, in
every run in which the server says that nothing has changed only to requests that told of a
payload. -/
theorem genuine_of_run {sdkKey : Str} {network : NetworkService} {labels : List ProvenanceLabel}
    {s : ProvenanceRun} (hrun : Machine.run (step p lib) (init sdkKey network) labels = some s)
    (hok : Machine.AllSteps (step p lib) (HonestServer p lib) (init sdkKey network) labels) :
    Genuine p lib s :=
  (Machine.run_induct (inv_step p lib) (inv_init p lib sdkKey network) hok hrun).toGenuine

/-- A payload that is fetched, written and then revalidated, and a restart. -/
def fetchedAndRevalidated : List ProvenanceLabel :=
  [.getDataAsync AdapterRun.aUser none (Rehash.id _ _),
   .fetchDone 0 { text := initializeResponse.emptyText 1, status := 200 } 1 (Rehash.id _ _),
   .writeDone 0 1 (Rehash.id _ _),
   .getDataAsync AdapterRun.aUser (some (AdapterRun.stored 1)) (Rehash.id _ _),
   .fetchDone 0 { status := 204 } 2 (Rehash.id _ _),
   .restart ⟨str "second session", str "stable"⟩]

/-- Both results that were delivered are the server's. -/
theorem genuine_fetchedAndRevalidated :
    ∃ s, Machine.run (step .linux initializeResponse.twoTexts)
        (init (str "key") ⟨str "first session", str "stable"⟩) fetchedAndRevalidated = some s ∧
      s.delivered.map DataAdapterResult.source = [.network, .networkNotModified] ∧
      Genuine .linux initializeResponse.twoTexts s := by
  have hrun : (Machine.run (step .linux initializeResponse.twoTexts)
      (init (str "key") ⟨str "first session", str "stable"⟩) fetchedAndRevalidated).map
        (fun s ↦ s.delivered.map DataAdapterResult.source) =
      some [.network, .networkNotModified] := by
    decide +kernel
  obtain ⟨s, hs, hdelivered⟩ := Option.map_eq_some_iff.mp hrun
  exact ⟨s, hs, hdelivered,
    genuine_of_run .linux initializeResponse.twoTexts hs (by decide +kernel)⟩

end ProvenanceRun

end Statsig
