import Statsig.Lib.OrderedMap
import Statsig.Types

/-!
# Hashes of users

`hashing::DJB2`, and the two strings it is applied to: the fingerprint of a whole user, by which
users are compared, and the cache key, which only looks at the ids.

What the source leaves to the platform is collected in `Platform`: the width of `unsigned long`,
the signedness of `char`, and the order in which a loop visits an `unordered_map` that was just
built.  The eleven labelled parts of the fingerprint sit in such a map, always with the same keys.
-/

set_option autoImplicit false

namespace Statsig

/-- The labels of the parts of a user's fingerprint. -/
def partLabels : List Str :=
  ["u", "ci", "e", "ip", "ua", "ct", "lc", "av", "cst", "pa", "tr"].map str

/-- What the platform decides. -/
structure Platform where
  /-- The width of `unsigned long`. -/
  longBits : ℕ
  /-- The language asks for at least this much. -/
  longBits_ge : 32 ≤ longBits
  /-- Plain `char` is signed. -/
  charSigned : Bool
  /-- The order in which the parts of a fingerprint are visited. -/
  partOrder : List Str
  /-- Each part is visited once. -/
  partOrder_perm : partOrder.Perm partLabels
  /-- The order in which the members of a parsed object are visited. -/
  memberOrder : Rehash Str Json

/-- Linux on x86-64, with everything visited in the order it is listed in. -/
def Platform.linux : Platform :=
  ⟨64, by decide, true, partLabels, List.Perm.refl _, Rehash.id Str Json⟩

/-- Where `unsigned long` has 32 bits. -/
def Platform.windows : Platform := { Platform.linux with longBits := 32, longBits_ge := le_rfl }

/-- Where `char` is unsigned. -/
def Platform.arm : Platform := { Platform.linux with charSigned := false }

namespace hashing

/-- The conversion of a `char` to `unsigned long`. -/
def widen (p : Platform) (c : UInt8) : BitVec p.longBits :=
  if p.charSigned then c.toBitVec.signExtend p.longBits else c.toBitVec.setWidth p.longBits

/-- The hash after one more character. -/
def djb2Step (p : Platform) (hash : BitVec p.longBits) (character : UInt8) : BitVec p.longBits :=
  (hash <<< 5) - hash + widen p character

/-- `hashing::DJB2` -/
def djb2 (p : Platform) (value : Str) : Str :=
  decimal ((value.foldl (djb2Step p) 0) &&& 0xffffffff).toNat

end hashing

variable (p : Platform)

/-- `CreateSortedMapString`, which puts the entries into a `std::map`. -/
def createSortedMapString (unordered : Option StringMap) : Str :=
  match unordered with
  | none => []
  | some m => (OrderedMap.ofEntries m.entries).flatMap fun e ↦ e.1 ++ str ":" ++ e.2 ++ str "|"

theorem createSortedMapString_some (m : StringMap) :
    createSortedMapString (some m) =
      m.sorted.entries.flatMap fun e ↦ e.1 ++ str ":" ++ e.2 ++ str "|" := by
  rw [createSortedMapString, OrderedMap.ofEntries_entries]

/-- `NormalizeUser` -/
def normalizeUser (user : StatsigUser) (options : StatsigOptions) : StatsigUser :=
  { user with statsigEnvironment := options.environment }

/-- The labelled parts of a user's fingerprint. -/
def userParts (user : StatsigUser) : List (Str × Str) :=
  [(str "u", user.userId.getD []),
   (str "ci", createSortedMapString (some user.customIds)),
   (str "e", user.email.getD []),
   (str "ip", user.ip.getD []),
   (str "ua", user.userAgent.getD []),
   (str "ct", user.country.getD []),
   (str "lc", user.locale.getD []),
   (str "av", user.appVersion.getD []),
   (str "cst", createSortedMapString user.custom),
   (str "pa", createSortedMapString user.privateAttributes),
   (str "tr", (user.statsigEnvironment.bind StatsigEnvironment.tier).getD [])]

/-- The text whose hash is the fingerprint. -/
def fullUserString (user : StatsigUser) : Str :=
  p.partOrder.flatMap fun label ↦
    label ++ str ":" ++ (lookupKey label (userParts user)).getD [] ++ str "-"

/-- `GetFullUserHash` -/
def getFullUserHash (user : StatsigUser) : Str := hashing.djb2 p (fullUserString p user)

/-- The ids of a user as `MakeCacheKey` joins them. -/
def customIdString (customIds : StringMap) : Str :=
  match customIds.sorted.entries with
  | [] => []
  | e :: es =>
    es.foldl (fun acc e ↦ acc ++ str "," ++ e.1 ++ str "-" ++ e.2) (e.1 ++ str "-" ++ e.2)

/-- The text whose hash is the cache key. -/
def cacheKeyString (sdkKey : Str) (user : StatsigUser) : Str :=
  str "uid:" ++ user.userId.getD [] ++ str "|" ++ (str "cids:" ++ customIdString user.customIds) ++
    str "|" ++ (str "k:" ++ sdkKey)

/-- `MakeCacheKey` -/
def makeCacheKey (sdkKey : Str) (user : StatsigUser) : Str :=
  hashing.djb2 p (cacheKeyString sdkKey user)

/-- `AreUsersEqual` -/
def areUsersEqual (left right : StatsigUser) : Bool :=
  getFullUserHash p left == getFullUserHash p right

@[simp] theorem areUsersEqual_iff {left right : StatsigUser} :
    areUsersEqual p left right = true ↔ getFullUserHash p left = getFullUserHash p right := by
  rw [areUsersEqual, beq_iff_eq]

theorem areUsersEqual_refl (user : StatsigUser) : areUsersEqual p user user = true := by simp

/-- The environment of the options is no part of the cache key. -/
@[simp] theorem makeCacheKey_normalizeUser (sdkKey : Str) (user : StatsigUser)
    (options : StatsigOptions) :
    makeCacheKey p sdkKey (normalizeUser user options) = makeCacheKey p sdkKey user := rfl

end Statsig
