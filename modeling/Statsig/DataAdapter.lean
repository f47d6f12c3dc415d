import Statsig.EvaluationStore
import Statsig.File

/-!
# The evaluations data adapter

A memory map over the cache directory.  `GetDataSync` answers from the map and, failing that, from
the user's file; `GetDataAsync` fetches, and `onLatest` is the lambda that takes the fetched result
in.

Insertions go through `emplace`, as in the source.
-/

set_option autoImplicit false

namespace Statsig

/-! ## The file format -/

/-- The number of an enumerator. -/
def ValueSource.toInt : ValueSource → ℤ
  | .uninitialized => 0
  | .loading => 1
  | .noValues => 2
  | .cache => 3
  | .network => 4
  | .networkNotModified => 5
  | .bootstrap => 6

/-- The enumerator of a number.  The one caller overwrites it, so what a number without an
enumerator stands for is never observed. -/
def ValueSource.ofInt (n : Int32) : ValueSource :=
  if n = 1 then .loading
  else if n = 2 then .noValues
  else if n = 3 then .cache
  else if n = 4 then .network
  else if n = 5 then .networkNotModified
  else if n = 6 then .bootstrap
  else .uninitialized

variable (p : Platform) (lib : JsonText)

namespace dataAdapterResult

def toJson (res : DataAdapterResult) : Json := .ofFields
  [(str "source", some (.int res.source.toInt)),
   (str "data", some (.str res.data)),
   (str "receivedAt", some (.int res.receivedAt.toInt)),
   (str "fullUserHash", some (.str res.fullUserHash))]

/-- `data_adapter_result::Serialize`; `none` where `dump` throws. -/
def serialize (res : DataAdapterResult) : Option (StatsigResult Str) :=
  (lib.dump (toJson res)).map fun text ↦ { code := .ok, value := some text }

def fromJson (j : Json) : Option DataAdapterResult := do
  let fullUserHash ← (j.find? (str "fullUserHash")).bind Json.getStr
  let receivedAt ← (j.find? (str "receivedAt")).bind Json.getInt64
  let source ← (j.find? (str "source")).bind Json.getEnum
  let data ← (j.find? (str "data")).bind Json.getStr
  return { source := .ofInt source, data, receivedAt, fullUserHash }

/-- `data_adapter_result::Deserialize` -/
def deserialize (input : Str) : StatsigResult DataAdapterResult :=
  match (lib.parse input).bind fromJson with
  | some res => { code := .ok, value := some res }
  | none => { code := .jsonFailureDataAdapterResult }

end dataAdapterResult

/-! ## The adapter -/

/-- `StatsigEvaluationsDataAdapter`, attached to a client, with the directory it shares. -/
structure DataAdapter where
  sdkKey : Str
  inMemoryCache : UnorderedMap Str DataAdapterResult := ∅
  dir : CacheDir := ∅
  deriving DecidableEq, Repr

/-- What `NetworkService::FetchValues` reports. -/
structure NetworkResult (α : Type) extends StatsigResult α where
  raw : Str := []
  deriving DecidableEq, Repr

/-- The state of the search for the oldest entry: its key, and `oldest_rec_at`. -/
def olderOf (best : Str × Int64) (e : Str × DataAdapterResult) : Str × Int64 :=
  if e.2.receivedAt < best.2 then (e.1, e.2.receivedAt) else best

/-- The entry that makes room, `none` only where the map is empty. -/
def oldestKey (m : UnorderedMap Str DataAdapterResult) : Option Str :=
  match m.entries with
  | [] => none
  | e :: es => some ((e :: es).foldl olderOf (e.1, Int64.maxValue)).1

/-- `AddToInMemoryCache` -/
def addToInMemoryCache (r : Rehash Str DataAdapterResult) (m : UnorderedMap Str DataAdapterResult)
    (cacheKey : Str) (result : DataAdapterResult) : UnorderedMap Str DataAdapterResult :=
  if m.size < constants.kMaxCachedEvaluationsCount then m.emplace r cacheKey result
  else
    match oldestKey m with
    | some oldest => (m.erase oldest).emplace r cacheKey result
    | none => m.emplace r cacheKey result

namespace DataAdapter

/-- `GetCacheKey` -/
def getCacheKey (sdkKey : Str) (user : StatsigUser) : Str :=
  constants.kCachedEvaluationsPrefix ++ makeCacheKey p sdkKey user

/-- `ReadFromCacheFile` -/
def readFromCacheFile (dir : CacheDir) (cacheKey : Str) : StatsigResult DataAdapterResult :=
  match File.readFromCache dir cacheKey with
  | none => { code := .ok }
  | some data =>
    let result := dataAdapterResult.deserialize lib data
    { result with value := result.value.map fun v ↦ { v with source := .cache } }

/-- `GetDataSync`: the answer, and the adapter afterwards. -/
def getDataSync (r : Rehash Str DataAdapterResult) (adapter : DataAdapter) (user : StatsigUser) :
    StatsigResult DataAdapterResult × DataAdapter :=
  let cacheKey := getCacheKey p adapter.sdkKey user
  match adapter.inMemoryCache.find? cacheKey with
  | some result => ({ code := .ok, value := some result }, adapter)
  | none =>
    let cache := readFromCacheFile lib adapter.dir cacheKey
    match cache.code, cache.value with
    | .ok, some result =>
      ({ code := .ok, value := some result },
       { adapter with
         inMemoryCache := addToInMemoryCache r adapter.inMemoryCache cacheKey result })
    | code, _ => ({ code }, adapter)

/-- `GetDataSync` finds nothing in memory, and turns to the file. -/
def readsFile (adapter : DataAdapter) (user : StatsigUser) : Bool :=
  (adapter.inMemoryCache.find? (getCacheKey p adapter.sdkKey user)).isNone

/-- What `GetDataAsync` compares the server's answer with, and the adapter afterwards. -/
def currentFor (r : Rehash Str DataAdapterResult) (adapter : DataAdapter) (user : StatsigUser)
    (current : Option DataAdapterResult) : Option DataAdapterResult × DataAdapter :=
  match current with
  | some result => (some result, adapter)
  | none => ((getDataSync p lib r adapter user).1.value, (getDataSync p lib r adapter user).2)

/-- The lambda of `FetchLatest`, run at the time `now`. -/
def fetchLatest (user : StatsigUser) (current : Option DataAdapterResult) (now : Int64)
    (netResult : NetworkResult InitializeResponse) : StatsigResult DataAdapterResult :=
  match netResult.code, netResult.value with
  | .ok, some data =>
    { code := .ok
      value := some
        (if data.hasUpdates then
          { source := .network, data := netResult.raw, receivedAt := now,
            fullUserHash := getFullUserHash p user }
        else
          { source := .networkNotModified, data := (current.map DataAdapterResult.data).getD [],
            receivedAt := now, fullUserHash := getFullUserHash p user }) }
  | code, _ => { code, extra := netResult.extra }

/-- What the lambda of `GetDataAsync` does with its callback. -/
inductive Delivery where
  /-- It is called with this result. -/
  | now (result : StatsigResult DataAdapterResult)
  /-- It is called with this result after the file has been written. -/
  | afterWrite (write : Str × Str) (result : StatsigResult DataAdapterResult)
  /-- The result could not be serialised: the exception leaves the lambda. -/
  | thrown
  deriving DecidableEq, Repr

/-- `WriteToCacheFile`: the directory after the eviction, and the write that is queued, unless
serialising throws. -/
def writeToCacheFile (dir : CacheDir) (cacheKey : Str) (result : DataAdapterResult) :
    CacheDir × Option (Str × Str) :=
  (File.runCacheEviction dir constants.kCachedEvaluationsPrefix,
   ((dataAdapterResult.serialize lib result).bind StatsigResult.value).map fun content ↦
     (cacheKey, content))

/-- The lambda of `GetDataAsync`, with the adapter alive. -/
def onLatest (r : Rehash Str DataAdapterResult) (adapter : DataAdapter) (user : StatsigUser)
    (latest : StatsigResult DataAdapterResult) : DataAdapter × Delivery :=
  match latest.value with
  | none => (adapter, .now { latest with value := none })
  | some value =>
    let cacheKey := getCacheKey p adapter.sdkKey user
    let cached := { adapter with
      inMemoryCache := addToInMemoryCache r adapter.inMemoryCache cacheKey value }
    if value.source = .network then
      let (dir, write) := writeToCacheFile lib adapter.dir cacheKey value
      ({ cached with dir },
       match write with
       | some write => .afterWrite write latest
       | none => .thrown)
    else (cached, .now latest)

end DataAdapter

end Statsig
