import Statsig.Lib.Delimited
import Statsig.Revalidation

/-!
# Which users share a key

A cache key and a fingerprint are hashes of texts into which the strings of a user are put as they
are, between separators.  Two users with one text are the same user as long as their strings do not
imitate the separators: `sameIds_of_plainIds` is about the cache key, `sameParts_of_plainParts`
about the fingerprint.  A user is free to choose strings that do.
-/

set_option autoImplicit false

namespace Statsig

open Delimited

variable (p : Platform)

/-! ## The two texts -/

theorem createSortedMapString_eq (m : Option StringMap) :
    createSortedMapString m = joinPairs 58 124 (m.getD ∅).sorted.entries := by
  cases m with
  | none => rfl
  | some m =>
    have hcolon : str ":" = [58] := by decide
    have hbar : str "|" = [124] := by decide
    simp [createSortedMapString_some, joinPairs, hcolon, hbar]

theorem fullUserString_eq (user : StatsigUser) :
    fullUserString p user =
      joinParts 45 58 (fun label ↦ (lookupKey label (userParts user)).getD []) p.partOrder := by
  have hcolon : str ":" = [58] := by decide
  have hdash : str "-" = [45] := by decide
  simp [fullUserString, joinParts, hcolon, hdash]

/-- With a comma after it, the text of the ids is that of pairs. -/
theorem customIdString_append (customIds : StringMap) (h : customIds.sorted.entries ≠ []) :
    customIdString customIds ++ [44] = joinPairs 45 44 customIds.sorted.entries := by
  have hcomma : str "," = [44] := by decide
  have hdash : str "-" = [45] := by decide
  have hfold : ∀ (es : List (Str × Str)) (acc : Str),
      es.foldl (fun acc e ↦ acc ++ str "," ++ e.1 ++ str "-" ++ e.2) acc ++ [44] =
        acc ++ 44 :: joinPairs 45 44 es := by
    intro es
    induction es with
    | nil => simp [joinPairs]
    | cons e es ih =>
      intro acc
      rw [List.foldl_cons, ih]
      simp [joinPairs, hcomma, hdash]
  rw [customIdString]
  cases hentries : customIds.sorted.entries with
  | nil => exact absurd hentries h
  | cons e es =>
    rw [hfold]
    simp [joinPairs, hdash]

theorem customIdString_eq_nil_iff (customIds : StringMap) :
    customIdString customIds = [] ↔ customIds.sorted.entries = [] := by
  constructor
  · intro h
    by_contra hne
    have happend := customIdString_append customIds hne
    rw [h] at happend
    cases hentries : customIds.sorted.entries with
    | nil => exact hne hentries
    | cons e es =>
      rw [hentries] at happend
      have hlength := congrArg List.length happend
      simp only [joinPairs, List.flatMap_cons, List.length_append, List.length_cons] at hlength
      simp at hlength
      omega
  · intro h
    rw [customIdString, h]

/-! ## Cache keys -/

/-- The ids do not imitate the separators of the cache key: the user id does not introduce the other
ids, these do not introduce the sdk key, no name of an id contains a dash, and no value a comma. -/
structure StatsigUser.PlainIds (user : StatsigUser) : Prop where
  userId : ¬ str "|cids:" <:+: user.userId.getD []
  joined : ¬ str "|k:" <:+: customIdString user.customIds
  customIds : PairsFree 45 44 user.customIds.entries

/-- The same user id and custom ids. -/
structure SameIds (user user' : StatsigUser) : Prop where
  userId : user.userId.getD [] = user'.userId.getD []
  customIds : user.customIds.Equiv user'.customIds

theorem pairsFree_sorted {c d : UInt8} {m : StringMap} (h : PairsFree c d m.entries) :
    PairsFree c d m.sorted.entries :=
  fun e he ↦ h e ((UnorderedMap.sorted_equiv m).mem_iff.mp he)

theorem equiv_of_customIdString {customIds customIds' : StringMap}
    (hfree : PairsFree 45 44 customIds.entries) (hfree' : PairsFree 45 44 customIds'.entries)
    (h : customIdString customIds = customIdString customIds') : customIds.Equiv customIds' := by
  apply UnorderedMap.equiv_of_sorted_entries
  by_cases hnil : customIds.sorted.entries = []
  · have hnil' := (customIdString_eq_nil_iff customIds).mpr hnil
    rw [hnil, (customIdString_eq_nil_iff customIds').mp (h ▸ hnil')]
  · have hnil' : customIds'.sorted.entries ≠ [] := fun hnil' ↦
      hnil ((customIdString_eq_nil_iff customIds).mp
        (h.trans ((customIdString_eq_nil_iff customIds').mpr hnil')))
    have hpairs : joinPairs 45 44 customIds.sorted.entries =
        joinPairs 45 44 customIds'.sorted.entries := by
      rw [← customIdString_append customIds hnil, ← customIdString_append customIds' hnil', h]
    exact joinPairs_inj (pairsFree_sorted hfree) (pairsFree_sorted hfree') hpairs

/-- **Cache keys**: the text that is hashed tells sdk keys and users apart, if the ids of the users
do not imitate its separators. -/
theorem sameIds_of_plainIds {sdkKey sdkKey' : Str} {user user' : StatsigUser}
    (huser : user.PlainIds) (huser' : user'.PlainIds)
    (h : cacheKeyString sdkKey user = cacheKeyString sdkKey' user') :
    sdkKey = sdkKey' ∧ SameIds user user' := by
  have hcids : str "|cids:" = 124 :: str "cids:" := by decide
  have hkey : str "|k:" = 124 :: str "k:" := by decide
  have htext : ∀ (sdkKey : Str) (user : StatsigUser), cacheKeyString sdkKey user =
      str "uid:" ++ (user.userId.getD [] ++ (124 :: str "cids:" ++
        (customIdString user.customIds ++ (124 :: str "k:" ++ sdkKey)))) := by
    intro sdkKey user
    simp [cacheKeyString, show str "|" = [124] by decide]
  rw [htext, htext] at h
  obtain ⟨huserId, h⟩ := append_separator_inj (by decide) (hcids ▸ huser.userId)
    (hcids ▸ huser'.userId) (List.append_cancel_left h)
  obtain ⟨hcustomIds, hsdkKey⟩ := append_separator_inj (by decide) (hkey ▸ huser.joined)
    (hkey ▸ huser'.joined) h
  exact ⟨hsdkKey, huserId, equiv_of_customIdString huser.customIds huser'.customIds hcustomIds⟩

/-- Ids with a comma and a dash in them: one id for two. -/
def oneId : StatsigUser := { customIds := .ofList [(str "a", str "b,c-d")] }
def twoIds : StatsigUser := { customIds := .ofList [(str "a", str "b"), (str "c", str "d")] }

/-- The two users have one cache key. -/
theorem not_forall_sameIds :
    ¬ ∀ (sdkKey sdkKey' : Str) (user user' : StatsigUser),
      cacheKeyString sdkKey user = cacheKeyString sdkKey' user' →
      sdkKey = sdkKey' ∧ SameIds user user' := by
  intro h
  have hkey : cacheKeyString (str "key") oneId = cacheKeyString (str "key") twoIds := by
    decide +kernel
  exact absurd (h _ _ _ _ hkey).2.customIds (by decide +kernel)

/-- Two users with plain ids, and what their one text says. -/
theorem sameIds_twoIds :
    str "key" = str "key" ∧
      SameIds { twoIds with userId := some [], email := some (str "a@b") } twoIds :=
  sameIds_of_plainIds ⟨by decide +kernel, by decide +kernel, by decide +kernel⟩
    ⟨by decide +kernel, by decide +kernel, by decide +kernel⟩ (by decide +kernel)

/-! ## Fingerprints -/

/-- The parts do not imitate the separators of the fingerprint: no part contains a dash with a label
and a colon after it, no name in a map contains a colon, and no value a bar. -/
structure StatsigUser.PlainParts (user : StatsigUser) : Prop where
  parts : ∀ part ∈ userParts user, ∀ label ∈ partLabels,
    ¬ str "-" ++ label ++ str ":" <:+: part.2
  customIds : PairsFree 58 124 user.customIds.entries
  custom : PairsFree 58 124 (user.custom.getD ∅).entries
  privateAttributes : PairsFree 58 124 (user.privateAttributes.getD ∅).entries

/-- The users agree on all that the fingerprint looks at. -/
structure SameParts (user user' : StatsigUser) : Prop extends SameIds user user' where
  email : user.email.getD [] = user'.email.getD []
  ip : user.ip.getD [] = user'.ip.getD []
  userAgent : user.userAgent.getD [] = user'.userAgent.getD []
  country : user.country.getD [] = user'.country.getD []
  locale : user.locale.getD [] = user'.locale.getD []
  appVersion : user.appVersion.getD [] = user'.appVersion.getD []
  custom : (user.custom.getD ∅).Equiv (user'.custom.getD ∅)
  privateAttributes : (user.privateAttributes.getD ∅).Equiv (user'.privateAttributes.getD ∅)
  tier : (user.statsigEnvironment.bind StatsigEnvironment.tier).getD [] =
    (user'.statsigEnvironment.bind StatsigEnvironment.tier).getD []

/-- Two texts with one hash. -/
def hashing.Collides (s t : Str) : Prop := s ≠ t ∧ djb2 p s = djb2 p t

section Fingerprints

variable {p} {user user' : StatsigUser}

theorem StatsigUser.PlainParts.partsFree (h : user.PlainParts) :
    PartsFree 45 58 (fun label ↦ (lookupKey label (userParts user)).getD []) p.partOrder := by
  intro label _ next hnext
  show ¬ 45 :: (next ++ [58]) <:+: (lookupKey label (userParts user)).getD []
  have hdash : str "-" ++ next ++ str ":" = 45 :: (next ++ [58]) := by
    simp [show str "-" = [45] by decide, show str ":" = [58] by decide]
  cases hpart : lookupKey label (userParts user) with
  | none => simp
  | some part =>
    rw [Option.getD_some, ← hdash]
    exact h.parts _ (mem_of_lookupKey hpart) next (p.partOrder_perm.mem_iff.mp hnext)

theorem equiv_of_createSortedMapString {m m' : Option StringMap}
    (h : createSortedMapString m = createSortedMapString m')
    (hfree : PairsFree 58 124 (m.getD ∅).entries)
    (hfree' : PairsFree 58 124 (m'.getD ∅).entries) : (m.getD ∅).Equiv (m'.getD ∅) := by
  rw [createSortedMapString_eq, createSortedMapString_eq] at h
  exact UnorderedMap.equiv_of_sorted_entries
    (joinPairs_inj (pairsFree_sorted hfree) (pairsFree_sorted hfree') h)

theorem sameParts_of_fullUserString (huser : user.PlainParts) (huser' : user'.PlainParts)
    (h : fullUserString p user = fullUserString p user') : SameParts user user' := by
  rw [fullUserString_eq, fullUserString_eq] at h
  have hlabels : ∀ label ∈ p.partOrder, (45 : UInt8) ∉ label := by
    intro label hlabel
    have hno : ∀ label ∈ partLabels, (45 : UInt8) ∉ label := by decide
    exact hno label (p.partOrder_perm.mem_iff.mp hlabel)
  have hparts : ∀ label ∈ partLabels, (lookupKey label (userParts user)).getD [] =
      (lookupKey label (userParts user')).getD [] := fun label hlabel ↦
    joinParts_inj (by decide) hlabels huser.partsFree huser'.partsFree h label
      (p.partOrder_perm.mem_iff.mpr hlabel)
  have hcustomIds : createSortedMapString (some user.customIds) =
      createSortedMapString (some user'.customIds) := hparts (str "ci") (by decide)
  exact
    { userId := hparts (str "u") (by decide)
      customIds := equiv_of_createSortedMapString hcustomIds huser.customIds huser'.customIds
      email := hparts (str "e") (by decide)
      ip := hparts (str "ip") (by decide)
      userAgent := hparts (str "ua") (by decide)
      country := hparts (str "ct") (by decide)
      locale := hparts (str "lc") (by decide)
      appVersion := hparts (str "av") (by decide)
      custom := equiv_of_createSortedMapString (hparts (str "cst") (by decide)) huser.custom
        huser'.custom
      privateAttributes := equiv_of_createSortedMapString (hparts (str "pa") (by decide))
        huser.privateAttributes huser'.privateAttributes
      tier := hparts (str "tr") (by decide) }

/-- Equal fingerprints are those of users who agree, or a collision. -/
theorem sameParts_or_collides (huser : user.PlainParts) (huser' : user'.PlainParts)
    (h : getFullUserHash p user = getFullUserHash p user') :
    SameParts user user' ∨ hashing.Collides p (fullUserString p user) (fullUserString p user') := by
  by_cases htext : fullUserString p user = fullUserString p user'
  · exact .inl (sameParts_of_fullUserString huser huser' htext)
  · exact .inr ⟨htext, h⟩

end Fingerprints

/-- **Fingerprints**: the text that is hashed tells users apart, if their strings do not imitate its
separators, so only a collision confuses two of them where users are compared and where a cached
value is checked. -/
theorem sameParts_of_plainParts (lib : JsonText) {user user' : StatsigUser}
    (huser : user.PlainParts) (huser' : user'.PlainParts) :
    (fullUserString p user = fullUserString p user' → SameParts user user') ∧
      (areUsersEqual p user user' = true →
        SameParts user user' ∨
          hashing.Collides p (fullUserString p user) (fullUserString p user')) ∧
      ∀ c : DataAdapterResult, c.fullUserHash = getFullUserHash p user' →
        (NetworkService.deserializeCacheValueIfValidFor204 p lib user (some c)).isSome = true →
          SameParts user user' ∨
            hashing.Collides p (fullUserString p user) (fullUserString p user') := by
  refine ⟨sameParts_of_fullUserString huser huser', fun hequal ↦ ?_, fun c hc hvalid ↦ ?_⟩
  · exact sameParts_or_collides huser huser' ((areUsersEqual_iff p).mp hequal)
  · obtain ⟨c', hc', hgenuine⟩ :=
      (DataAdapter.isSome_deserializeCacheValueIfValidFor204 user (some c)).mp hvalid
    rw [Option.some_inj] at hc'
    subst hc'
    exact sameParts_or_collides huser huser' (hgenuine.2.symm.trans hc)

/-- An id with a bar and a colon in its value. -/
def oneIdWithBar : StatsigUser := { customIds := .ofList [(str "a", str "b|c:d")] }

/-- The two users have one fingerprint. -/
theorem not_forall_sameParts :
    ¬ ∀ user user' : StatsigUser,
      fullUserString Platform.linux user = fullUserString Platform.linux user' →
      SameParts user user' := by
  intro h
  have htext : fullUserString Platform.linux oneIdWithBar =
      fullUserString Platform.linux twoIds := by
    decide +kernel
  exact absurd (h _ _ htext).customIds (by decide +kernel)

/-- Two users with plain parts and one text, that differ where the text does not look. -/
theorem sameParts_twoIds :
    SameParts { twoIds with userId := some [], custom := some ∅ } twoIds :=
  (sameParts_of_plainParts Platform.linux initializeResponse.twoTexts
    ⟨by decide +kernel, by decide +kernel, by decide +kernel, by decide +kernel⟩
    ⟨by decide +kernel, by decide +kernel, by decide +kernel, by decide +kernel⟩).1
      (by decide +kernel)

end Statsig
