import Statsig.DataAdapter
import Statsig.RoundTrip

/-!
# Equal users have equal keys

The maps of a user are visited in an order that is not specified, and two equal users may have
theirs visited in different orders.  Both texts that are made of a map put its entries in order
first: `CreateSortedMapString` by inserting them into a `std::map`, `MakeCacheKey` by sorting a
vector.  `sameKeys_of_same` says that this is enough.
-/

set_option autoImplicit false

namespace Statsig

/-! ## Maps in order -/

theorem createSortedMapString_congr {m m' : Option StringMap}
    (h : Option.Rel UnorderedMap.Equiv m m') :
    createSortedMapString m = createSortedMapString m' := by
  cases h with
  | none => rfl
  | some h => rw [createSortedMapString_some, createSortedMapString_some, h.sorted_eq]

theorem customIdString_congr {customIds customIds' : StringMap}
    (h : customIds.Equiv customIds') : customIdString customIds = customIdString customIds' := by
  rw [customIdString, customIdString, h.sorted_eq]

/-! ## The keys -/

variable {user user' : StatsigUser}

theorem StatsigUser.Same.userParts_eq (h : user.Same user') : userParts user = userParts user' := by
  rw [userParts, userParts, h.userId, h.email, h.ip, h.userAgent, h.country, h.locale, h.appVersion,
    h.statsigEnvironment, createSortedMapString_congr (.some h.customIds),
    createSortedMapString_congr h.custom, createSortedMapString_congr h.privateAttributes]

theorem StatsigUser.Same.cacheKeyString_eq (h : user.Same user') (sdkKey : Str) :
    cacheKeyString sdkKey user = cacheKeyString sdkKey user' := by
  rw [cacheKeyString, cacheKeyString, h.userId, customIdString_congr h.customIds]

variable (p : Platform)

/-- The two users have one key and one fingerprint, and the data adapter cannot tell them apart: it
finds the same for both, and puts what was fetched for either in the same place. -/
structure SameKeys (sdkKey : Str) (user user' : StatsigUser) : Prop where
  cacheKey : makeCacheKey p sdkKey user = makeCacheKey p sdkKey user'
  fullUserHash : getFullUserHash p user = getFullUserHash p user'
  areUsersEqual : areUsersEqual p user user' = true
  getDataSync : ∀ (lib : JsonText) (r : Rehash Str DataAdapterResult) (adapter : DataAdapter),
    adapter.sdkKey = sdkKey → adapter.getDataSync p lib r user = adapter.getDataSync p lib r user'
  onLatest : ∀ (lib : JsonText) (r : Rehash Str DataAdapterResult) (adapter : DataAdapter)
    (latest : StatsigResult DataAdapterResult), adapter.sdkKey = sdkKey →
      adapter.onLatest p lib r user latest = adapter.onLatest p lib r user' latest

/-- **Equal users have equal keys**, in whatever order their maps are visited. -/
theorem sameKeys_of_same (sdkKey : Str) (user user' : StatsigUser) (h : user.Same user') :
    SameKeys p sdkKey user user' := by
  have hcacheKey : makeCacheKey p sdkKey user = makeCacheKey p sdkKey user' := by
    rw [makeCacheKey, makeCacheKey, h.cacheKeyString_eq]
  have hhash : getFullUserHash p user = getFullUserHash p user' := by
    rw [getFullUserHash, getFullUserHash, fullUserString, fullUserString, h.userParts_eq]
  have hkey : DataAdapter.getCacheKey p sdkKey user = DataAdapter.getCacheKey p sdkKey user' := by
    rw [DataAdapter.getCacheKey, DataAdapter.getCacheKey, hcacheKey]
  refine ⟨hcacheKey, hhash, (areUsersEqual_iff p).mpr hhash, fun lib r adapter hsdk ↦ ?_,
    fun lib r adapter latest hsdk ↦ ?_⟩
  · rw [DataAdapter.getDataSync, DataAdapter.getDataSync, hsdk, hkey]
  · rw [DataAdapter.onLatest, DataAdapter.onLatest, hsdk, hkey]

/-- A user, and the same user with all maps visited the other way round. -/
def oneWay : StatsigUser where
  userId := some (str "a-user")
  customIds := .ofList [(str "a", str "1"), (str "b", str "2")]
  custom := some (.ofList [(str "c", str "3"), (str "d", str "4"), (str "e", str "5")])
def otherWay : StatsigUser where
  userId := some (str "a-user")
  customIds := .ofList [(str "b", str "2"), (str "a", str "1")]
  custom := some (.ofList [(str "e", str "5"), (str "d", str "4"), (str "c", str "3")])

theorem sameKeys_otherWay : SameKeys .linux (str "key") oneWay otherWay :=
  sameKeys_of_same .linux (str "key") oneWay otherWay
    ⟨rfl, by decide +kernel, rfl, rfl, rfl, rfl, rfl, rfl, .some (by decide +kernel), .none, rfl⟩

end Statsig
