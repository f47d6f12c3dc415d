import Statsig.Freshness
import Statsig.NetworkService

/-!
# The background task of an update

What the task that `UpdateUserSync` or `UpdateUserAsync` has queued does, step by step, until it
calls back: the request with its attempts, the answer, and the file that is written before the
callback.

Calls of the file system may throw in it.  Where `FetchValues` is on the stack, its `Capture`
swallows the exception, and the callback with it; before that nothing does, and the exception leaves
the task.

`proceed_cases` says when the callback is lost on the way, and `sound_advance` that nothing that is
delivered is marked as loading.
-/

set_option autoImplicit false

namespace Statsig

/-- A context, with the data adapter and the adapter's network. -/
structure StatsigContext extends ClientState where
  adapter : DataAdapter
  network : NetworkService
  /-- The network has its stable id, and does not ask for it again. -/
  identified : Bool := false
  deriving DecidableEq, Repr

/-- The constructor of `StatsigContext`. -/
def StatsigContext.create (sdkKey : Str) (user : Option StatsigUser)
    (options : Option StatsigOptions) (network : NetworkService) (dir : CacheDir) :
    StatsigContext :=
  { options := options.getD {}, user := user.getD {}, adapter := { sdkKey, dir }, network }

/-- What a background task does next. -/
inductive FetchStage where
  /-- It waits for a worker. -/
  | queued
  /-- It waits for the answer to this attempt. -/
  | posted (user : StatsigUser) (attempt : ℤ)
  /-- It waits for the file to be written. -/
  | writing (user : StatsigUser) (result : StatsigResult DataAdapterResult)
  deriving DecidableEq, Repr

/-- The background task of an update.  That of `UpdateUserSync` has nobody to call back, and fetches
for the user it finds when it runs. -/
structure FetchTask where
  ctx : ℕ
  call : Option ℕ
  initiator : Option StatsigUser
  current : Option DataAdapterResult
  stage : FetchStage := .queued
  deriving DecidableEq, Repr

/-- What a step of a task leads to. -/
inductive Progress where
  | waits (task : FetchTask)
  | returns (user : StatsigUser) (result : StatsigResult DataAdapterResult)
  | lost
  deriving DecidableEq, Repr

variable (p : Platform) (lib : JsonText)

/-- The next step of a task, as far as no call of the file system throws.  An exception of the
serialisation is swallowed by `FetchValues`. -/
def FetchTask.advance (task : FetchTask) (ctx : StatsigContext) (live : Bool)
    (response : HttpResponse) (now : Int64) (r : Rehash Str DataAdapterResult) :
    DataAdapter × Progress :=
  match task.stage with
  | .queued =>
    if live then
      let user := task.initiator.getD ctx.user
      let (current, adapter) := ctx.adapter.currentFor p lib r user task.current
      match ctx.network.fetchValuesBody p lib user current with
      | none => (adapter, .lost)
      | some _ => (adapter, .waits { task with current, stage := .posted user 1 })
    else (ctx.adapter, .lost)
  | .posted user attempt =>
    if shouldRetry constants.kInitializeRetryCount attempt response then
      (ctx.adapter, .waits { task with stage := .posted user (attempt + 1) })
    else
      let latest := DataAdapter.fetchLatest p user task.current now
        (NetworkService.handleFetchValuesResponse p lib response)
      let (adapter, delivery) := ctx.adapter.onLatest p lib r user latest
      match delivery with
      | .now result => (adapter, .returns user result)
      | .afterWrite _ result => (adapter, .waits { task with stage := .writing user result })
      | .thrown => (adapter, .lost)
  | .writing user result => (ctx.adapter, if live then .returns user result else .lost)

/-- The calls of the file system that throw while a step is taken. -/
structure FileFaults where
  /-- Those for the files with evaluations. -/
  evaluations : Bool := false
  /-- Those for the file with the stable id. -/
  stableId : Bool := false
  deriving DecidableEq, Repr

/-- What becomes of an exception in a task. -/
inductive Thrown where
  | escapes
  | swallowed
  deriving DecidableEq, Repr

namespace FetchTask

/-- `GetDataAsync` has been given nothing, and asks `GetDataSync`, which turns to the file. -/
def readsFile (task : FetchTask) (ctx : StatsigContext) : Bool :=
  task.current.isNone && ctx.adapter.readsFile p (task.initiator.getD ctx.user)

/-- The answer is the final one, and goes into a file. -/
def writesFile (task : FetchTask) (user : StatsigUser) (attempt : ℤ) (response : HttpResponse)
    (now : Int64) : Bool :=
  !shouldRetry constants.kInitializeRetryCount attempt response &&
    (DataAdapter.fetchLatest p user task.current now
      (NetworkService.handleFetchValuesResponse p lib response)).value.any fun value ↦
        decide (value.source = .network)

/-- The exception of the file system that a step meets, if it meets one: in `GetDataSync`, in
`StableID::Get`, or in `RunCacheEviction` and `WriteToCache`. -/
def thrown (task : FetchTask) (ctx : StatsigContext) (live : Bool) (faults : FileFaults)
    (response : HttpResponse) (now : Int64) : Option Thrown :=
  match task.stage with
  | .queued =>
    if !live then none
    else if faults.evaluations && task.readsFile p ctx then some .escapes
    else if faults.stableId && !ctx.identified then some .swallowed
    else none
  | .posted user attempt =>
    if faults.evaluations && task.writesFile p lib user attempt response now then some .swallowed
    else none
  | .writing _ _ => none

/-- The next step of a task; `none` when an exception leaves it.  One that is swallowed comes after
the step's insertion into the memory map.  What an eviction has removed by then counts as a change
of the directory by others. -/
def proceed (task : FetchTask) (ctx : StatsigContext) (live : Bool) (faults : FileFaults)
    (response : HttpResponse) (now : Int64) (r : Rehash Str DataAdapterResult) :
    Option (StatsigContext × Progress) :=
  let (adapter, progress) := task.advance p lib ctx live response now r
  match task.thrown p lib ctx live faults response now with
  | some .escapes => none
  | some .swallowed => some ({ ctx with adapter := { adapter with dir := ctx.adapter.dir } }, .lost)
  | none =>
    let identified := ctx.identified || (live && decide (task.stage = .queued))
    some ({ ctx with adapter, identified }, progress)

/-- The request of a task can be built. -/
def requestable (task : FetchTask) (ctx : StatsigContext) : Bool :=
  (task.initiator.getD ctx.user).validUtf8 &&
    (Utf8.valid ctx.network.sessionId && Utf8.valid ctx.network.stableId)

/-- A task finds its context when it starts and when it is to call back, and its request can be
built. -/
def ReadyAt (task : FetchTask) (ctx : StatsigContext) (live : Bool) : FetchStage → Prop
  | .queued => live = true ∧ task.requestable ctx = true
  | .posted _ _ => True
  | .writing _ _ => live = true

instance (task : FetchTask) (ctx : StatsigContext) (live : Bool) (stage : FetchStage) :
    Decidable (task.ReadyAt ctx live stage) :=
  match stage with
  | .queued => inferInstanceAs (Decidable (_ ∧ _))
  | .posted _ _ => .isTrue trivial
  | .writing _ _ => inferInstanceAs (Decidable (_ = true))

def Ready (task : FetchTask) (ctx : StatsigContext) (live : Bool) : Prop :=
  task.ReadyAt ctx live task.stage

instance (task : FetchTask) (ctx : StatsigContext) (live : Bool) :
    Decidable (task.Ready ctx live) :=
  inferInstanceAs (Decidable (task.ReadyAt ctx live task.stage))

end FetchTask

/-! ## The results that are delivered -/

/-- Whatever the result holds is not marked as loading. -/
def NotLoading (result : StatsigResult DataAdapterResult) : Prop :=
  ∀ value, result.value = some value → value.source ≠ .loading

namespace dataAdapterResult

theorem exists_serialize {res : DataAdapterResult} (hdata : Utf8.valid res.data = true)
    (hhash : Utf8.valid res.fullUserHash = true) :
    ∃ text, serialize lib res = some { code := .ok, value := some text } := by
  refine ⟨lib.text (toJson res), ?_⟩
  have hvalid : (toJson res).validUtf8 = true := by
    rw [toJson, validUtf8_ofFields_of_names (by simp; decide)]
    simp only [List.all_cons, List.all_nil, Option.all_some, Json.validUtf8_str, hdata, hhash]
    rfl
  rw [serialize, JsonText.dump, if_pos hvalid]
  rfl

end dataAdapterResult

namespace DataAdapter

/-- What a response makes of a fetch: nothing, an answer that can be written, or the old data. -/
theorem fetchLatest_response (user : StatsigUser) (current : Option DataAdapterResult)
    (now : Int64) (response : HttpResponse) {value : DataAdapterResult}
    (h : (fetchLatest p user current now
      (NetworkService.handleFetchValuesResponse p lib response)).value = some value) :
    (value.source = .network ∧ Utf8.valid value.data = true ∧
        Utf8.valid value.fullUserHash = true) ∨
      value.source = .networkNotModified := by
  simp only [NetworkService.handleFetchValuesResponse] at h
  split at h
  · exact absurd h (by simp [fetchLatest])
  · split at h
    · obtain rfl := Option.some_inj.mp h
      exact .inr rfl
    · cases hdecode : initializeResponse.decode p lib response.text with
      | none =>
        rw [hdecode] at h
        exact absurd h (by simp [fetchLatest])
      | some data =>
        rw [hdecode] at h
        obtain rfl := Option.some_inj.mp h
        by_cases hupdates : data.hasUpdates = true
        · rw [if_pos hupdates]
          exact .inl ⟨rfl, initializeResponse.valid_of_decode p lib hdecode, valid_decimal _⟩
        · rw [if_neg hupdates]
          exact .inr rfl

/-- **The adapter never throws** on the result of a fetch: it calls back, at once or after the
write. -/
theorem onLatest_response (r : Rehash Str DataAdapterResult) (adapter : DataAdapter)
    (user : StatsigUser) (current : Option DataAdapterResult) (now : Int64)
    (response : HttpResponse) :
    let latest := fetchLatest p user current now
      (NetworkService.handleFetchValuesResponse p lib response)
    NotLoading latest ∧ ∃ result, NotLoading result ∧
      ((adapter.onLatest p lib r user latest).2 = .now result ∨
        ∃ write, (adapter.onLatest p lib r user latest).2 = .afterWrite write result) := by
  intro latest
  have hlatest : NotLoading latest := by
    intro value hvalue
    rcases fetchLatest_response p lib user current now response hvalue with ⟨h, -⟩ | h
    · simp [h]
    · simp [h]
  refine ⟨hlatest, ?_⟩
  cases hvalue : latest.value with
  | none =>
    refine ⟨{ latest with value := none }, fun _ h ↦ absurd h (by simp), .inl ?_⟩
    simp [onLatest, hvalue]
  | some value =>
    refine ⟨latest, hlatest, ?_⟩
    rcases fetchLatest_response p lib user current now response hvalue with
      ⟨hsource, hdata, hhash⟩ | hsource
    · obtain ⟨text, htext⟩ := dataAdapterResult.exists_serialize lib hdata hhash
      refine .inr ⟨(getCacheKey p adapter.sdkKey user, text), ?_⟩
      simp [onLatest, hvalue, hsource, writeToCacheFile, htext]
    · exact .inl (by simp [onLatest, hvalue, hsource])

end DataAdapter

namespace FetchTask

/-- **One step of a task**: it goes on waiting, or returns a result, as long as it is ready, and is
lost otherwise. -/
theorem advance_cases (task : FetchTask) (ctx : StatsigContext) (live : Bool)
    (response : HttpResponse) (now : Int64) (r : Rehash Str DataAdapterResult) :
    (task.Ready ctx live ∧
      ((∃ stage current, (task.advance p lib ctx live response now r).2 =
          .waits { task with stage, current }) ∨
        ∃ user result, (task.advance p lib ctx live response now r).2 = .returns user result)) ∨
    (¬ task.Ready ctx live ∧
      (task.advance p lib ctx live response now r).2 = .lost) := by
  cases hstage : task.stage with
  | queued =>
    simp only [Ready, ReadyAt, advance, hstage]
    cases live with
    | false => exact .inr ⟨by simp, rfl⟩
    | true =>
      have hbody := NetworkService.isSome_fetchValuesBody p lib ctx.network
        (task.initiator.getD ctx.user)
        (ctx.adapter.currentFor p lib r (task.initiator.getD ctx.user) task.current).1
      rw [← requestable] at hbody
      simp only [if_true]
      split
      · rename_i hnone
        rw [hnone] at hbody
        exact .inr ⟨fun h ↦ absurd (hbody.trans h.2) (by simp), rfl⟩
      · rename_i body hsome
        rw [hsome] at hbody
        exact .inl ⟨⟨trivial, hbody.symm⟩, .inl ⟨_, _, rfl⟩⟩
  | posted user attempt =>
    simp only [Ready, ReadyAt, advance, hstage]
    refine .inl ⟨trivial, ?_⟩
    split
    · exact .inl ⟨_, _, rfl⟩
    · obtain ⟨-, result, -, hnow | ⟨write, hwrite⟩⟩ :=
        DataAdapter.onLatest_response p lib r ctx.adapter user task.current now response
      · rw [hnow]
        exact .inr ⟨_, _, rfl⟩
      · rw [hwrite]
        exact .inl ⟨_, _, rfl⟩
  | writing user result =>
    simp only [Ready, ReadyAt, advance, hstage]
    cases live with
    | false => exact .inr ⟨by simp, rfl⟩
    | true => exact .inl ⟨rfl, .inr ⟨_, _, rfl⟩⟩

/-- **One step of a task, with exceptions**: one leaves the task; or it goes on waiting, or returns
a result, as long as it is ready and nothing throws; or it is lost. -/
theorem proceed_cases (task : FetchTask) (ctx : StatsigContext) (live : Bool) (faults : FileFaults)
    (response : HttpResponse) (now : Int64) (r : Rehash Str DataAdapterResult) :
    (task.thrown p lib ctx live faults response now = some .escapes ∧
      task.proceed p lib ctx live faults response now r = none) ∨
    ∃ ctx' progress,
      task.proceed p lib ctx live faults response now r = some (ctx', progress) ∧
      ctx'.toClientState = ctx.toClientState ∧
      ctx'.adapter.inMemoryCache =
        (task.advance p lib ctx live response now r).1.inMemoryCache ∧
      ((task.Ready ctx live ∧ task.thrown p lib ctx live faults response now = none ∧
          progress = (task.advance p lib ctx live response now r).2 ∧
          ((∃ stage current, progress = .waits { task with stage, current }) ∨
            ∃ user result, progress = .returns user result)) ∨
        (¬ (task.Ready ctx live ∧ task.thrown p lib ctx live faults response now = none) ∧
          task.thrown p lib ctx live faults response now ≠ some .escapes ∧ progress = .lost)) := by
  rw [proceed]
  cases hthrown : task.thrown p lib ctx live faults response now with
  | none =>
    refine .inr ⟨_, _, rfl, rfl, rfl, ?_⟩
    rcases task.advance_cases p lib ctx live response now r with ⟨hready, hgoes⟩ | ⟨hnot, hlost⟩
    · exact .inl ⟨hready, rfl, rfl, hgoes⟩
    · exact .inr ⟨fun h ↦ hnot h.1, by simp, hlost⟩
  | some thrown =>
    cases thrown with
    | escapes => exact .inl ⟨rfl, rfl⟩
    | swallowed => exact .inr ⟨_, _, rfl, rfl, rfl, .inr ⟨by simp, by simp, rfl⟩⟩

end FetchTask

/-! ## What is marked as loading -/

/-- Values in the store are not marked as loading. -/
def EvaluationStore.Loaded (store : EvaluationStore) : Prop :=
  store.values.isSome = true → store.sourceInfo.source ≠ .loading

/-- Nothing in the memory map is marked as loading. -/
def DataAdapter.NeverLoading (adapter : DataAdapter) : Prop :=
  ∀ key value, adapter.inMemoryCache.find? key = some value → value.source ≠ .loading

namespace EvaluationStore

variable {store : EvaluationStore}

theorem Loaded.setValues (hs : store.Loaded) {result : StatsigResult DataAdapterResult}
    (h : NotLoading result) : (store.setValues p lib result.value).Loaded := by
  rcases setValues_cases p lib store result.value with ⟨r, values, hr, -, -, heq⟩ | ⟨-, heq⟩
  · rw [heq]
    exact fun _ ↦ h r hr
  · rw [heq]
    exact hs

theorem Loaded.finalize (hs : store.Loaded) :
    store.finalize.sourceInfo.source ≠ .loading := by
  cases hv : store.values with
  | none => simp [finalize_of_none hv]
  | some values =>
    have hsome : store.values.isSome = true := by rw [hv]; rfl
    rw [finalize_of_isSome hsome]
    exact hs hsome

end EvaluationStore

namespace DataAdapter

variable {adapter : DataAdapter}

/-- What is read from a file is marked as cached. -/
theorem source_readFromCacheFile {dir : CacheDir} {key : Str} {result : DataAdapterResult}
    (h : (readFromCacheFile lib dir key).value = some result) : result.source = .cache := by
  simp only [readFromCacheFile] at h
  split at h
  · exact absurd h (by simp)
  · obtain ⟨read, -, rfl⟩ := Option.map_eq_some_iff.mp h
    rfl

theorem NeverLoading.getDataSync (h : adapter.NeverLoading) (r : Rehash Str DataAdapterResult)
    (user : StatsigUser) :
    NotLoading (adapter.getDataSync p lib r user).1 ∧
      (adapter.getDataSync p lib r user).2.NeverLoading :=
  Cached.getDataSync h r user fun result hread ↦ by
    rw [source_readFromCacheFile lib hread]
    decide

theorem NeverLoading.currentFor (h : adapter.NeverLoading) (r : Rehash Str DataAdapterResult)
    (user : StatsigUser) (current : Option DataAdapterResult) :
    (adapter.currentFor p lib r user current).2.NeverLoading := by
  cases current with
  | none => exact (h.getDataSync p lib r user).2
  | some result => exact h

theorem NeverLoading.onLatest (h : adapter.NeverLoading) (r : Rehash Str DataAdapterResult)
    (user : StatsigUser) {latest : StatsigResult DataAdapterResult} (hlatest : NotLoading latest) :
    (adapter.onLatest p lib r user latest).1.NeverLoading :=
  Cached.onLatest h r user hlatest

end DataAdapter

/-- Nothing of a context is marked as loading. -/
structure StatsigContext.Sound (ctx : StatsigContext) : Prop where
  loaded : ctx.store.Loaded
  cached : ctx.adapter.NeverLoading

namespace StatsigContext

variable {ctx : StatsigContext}

theorem sound_create (sdkKey : Str) (user : Option StatsigUser) (options : Option StatsigOptions)
    (network : NetworkService) (dir : CacheDir) :
    (create sdkKey user options network dir).Sound :=
  ⟨fun h ↦ absurd h (by simp [create]),
    fun _ value h ↦ absurd (show none = some value from h) (by simp)⟩

theorem loaded_beginUpdate (client : ClientState) (user : StatsigUser)
    {cached : StatsigResult DataAdapterResult} (h : NotLoading cached) :
    (client.beginUpdate p lib user cached).store.Loaded := by
  have hreset : (client.writeUser user).resetStore.store.Loaded := fun h ↦ absurd h (by simp)
  rw [ClientState.beginUpdate, ClientState.applyResult]
  split
  · exact hreset.setValues p lib h
  · exact hreset

theorem Sound.innerCallback (hs : ctx.Sound) (user : StatsigUser)
    {result : StatsigResult DataAdapterResult} (h : NotLoading result) :
    (ctx.innerCallback p lib user result).store.sourceInfo.source ≠ .loading := by
  rw [ClientState.innerCallback, ClientState.store_finalizeStore]
  apply EvaluationStore.Loaded.finalize
  split
  · exact hs.loaded.setValues p lib h
  · exact hs.loaded

end StatsigContext

namespace FetchTask

variable {ctx : StatsigContext}

/-- A result that is being written is not marked as loading. -/
def Writable (task : FetchTask) : Prop :=
  ∀ user result, task.stage = .writing user result → NotLoading result

theorem sound_advance {task : FetchTask} (hctx : ctx.Sound) (htask : task.Writable) (live : Bool)
    (response : HttpResponse) (now : Int64) (r : Rehash Str DataAdapterResult) :
    (task.advance p lib ctx live response now r).1.NeverLoading ∧
      (∀ task', (task.advance p lib ctx live response now r).2 = .waits task' → task'.Writable) ∧
      ∀ user result, (task.advance p lib ctx live response now r).2 = .returns user result →
        NotLoading result := by
  cases hstage : task.stage with
  | queued =>
    simp only [advance, hstage]
    split
    · have hcached := hctx.cached.currentFor p lib r (task.initiator.getD ctx.user) task.current
      split
      · exact ⟨hcached, by simp, by simp⟩
      · refine ⟨hcached, fun task' h ↦ ?_, by simp⟩
        obtain rfl := Progress.waits.inj h
        exact fun user result h ↦ absurd h (by simp)
    · exact ⟨hctx.cached, by simp, by simp⟩
  | posted user attempt =>
    simp only [advance, hstage]
    split
    · refine ⟨hctx.cached, fun task' h ↦ ?_, by simp⟩
      obtain rfl := Progress.waits.inj h
      exact fun user result h ↦ absurd h (by simp)
    · obtain ⟨hlatest, result, hresult, hdelivery⟩ :=
        DataAdapter.onLatest_response p lib r ctx.adapter user task.current now response
      have hcached := hctx.cached.onLatest p lib r user hlatest
      rcases hdelivery with hnow | ⟨write, hwrite⟩
      · rw [hnow]
        refine ⟨hcached, by simp, fun user' result' h ↦ ?_⟩
        rw [← (Progress.returns.inj h).2]
        exact hresult
      · rw [hwrite]
        refine ⟨hcached, fun task' h ↦ ?_, by simp⟩
        obtain rfl := Progress.waits.inj h
        intro user' result' h
        rw [← (FetchStage.writing.inj h).2]
        exact hresult
  | writing user result =>
    simp only [advance, hstage]
    refine ⟨hctx.cached, fun task' h ↦ ?_, fun user' result' h ↦ ?_⟩
    · split at h <;> exact absurd h (by simp)
    · split at h
      · rw [← (Progress.returns.inj h).2]
        exact htask user result hstage
      · exact absurd h (by simp)

end FetchTask

end Statsig
