import Statsig.ValidUtf8

/-!
# What survives the failed-events file

`deserialize_serialize` says what a list of payloads is after it has been written to the file and
read back: the list of their `canon`s.
-/

set_option autoImplicit false

namespace Statsig

/-! ## Users -/

namespace statsigUser

theorem nodup_fields (u : StatsigUser) : ((fields u).map Prod.fst).Nodup := by
  simp only [fields, List.map_cons, List.map_nil]
  decide

theorem toJson_eq_null_iff {u : StatsigUser} :
    toJson u = .null ↔ ∀ f ∈ fields u, f.2 = none := by
  refine ⟨fun h f hf ↦ ?_, Json.ofFields_eq_null⟩
  by_contra hne
  have := Json.isObject_ofFields hf (Option.isSome_iff_ne_none.mpr hne)
  rw [← toJson, h] at this
  exact absurd this (by decide)

/-- Only the user with nothing set has no document. -/
theorem toJson_eq_null_iff_eq_empty {u : StatsigUser} : toJson u = .null ↔ u = {} := by
  rw [toJson_eq_null_iff]
  constructor
  · intro h
    simp only [fields, List.forall_mem_cons, Option.map_eq_none_iff] at h
    obtain ⟨hids, h⟩ := h
    have hnil : u.customIds = ∅ := by
      refine UnorderedMap.ext_entries ?_
      by_contra hne
      rw [UnorderedMap.entries_empty] at hne
      simp [hne] at hids
    obtain ⟨h1, h2, h3, h4, h5, h6, h7, h8, h9, h10, -⟩ := h
    cases u
    simp_all
  · rintro rfl
    decide

theorem isObject_toJson {u : StatsigUser} (h : toJson u ≠ .null) : (toJson u).isObject = true := by
  rw [Ne, toJson_eq_null_iff] at h
  obtain ⟨f, hf⟩ := not_forall.mp h
  obtain ⟨hf, hne⟩ := Classical.not_imp.mp hf
  exact Json.isObject_ofFields hf (Option.isSome_iff_ne_none.mpr hne)

@[simp] theorem dumped_envToJson (e : StatsigEnvironment) : (envToJson e).dumped = envToJson e := by
  rw [envToJson, Json.dumped_ofFields (by simp)]
  cases e.tier <;> simp

@[simp] theorem dumped_toJson (u : StatsigUser) : (toJson u).dumped = toJson u := by
  have hstr : ∀ o : Option Str, (o.map Json.str).map Json.dumped = o.map Json.str := fun o ↦ by
    cases o <;> simp
  have hmap : ∀ o : Option StringMap, (o.map Json.ofStrMap).map Json.dumped = o.map Json.ofStrMap :=
    fun o ↦ by cases o <;> simp
  have henv : (u.statsigEnvironment.map envToJson).map Json.dumped =
      u.statsigEnvironment.map envToJson := by cases u.statsigEnvironment <;> simp
  have hids : (if u.customIds.entries = [] then none else some (Json.ofStrMap u.customIds)).map
      Json.dumped =
        if u.customIds.entries = [] then none else some (Json.ofStrMap u.customIds) := by
    split <;> simp
  rw [toJson, Json.dumped_ofFields (nodup_fields u)]
  simp only [fields, List.map_cons, List.map_nil, hstr, hmap, henv, hids]

end statsigUser

/-- The user that comes back: maps in the order of their keys, and an empty user id where there was
none, unless nothing at all is set. -/
def StatsigUser.canon (u : StatsigUser) : StatsigUser :=
  if statsigUser.toJson u = .null then {} else
    { u with
      userId := some (u.userId.getD [])
      customIds := u.customIds.sorted
      custom := u.custom.map UnorderedMap.sorted
      privateAttributes := u.privateAttributes.map UnorderedMap.sorted }

namespace statsigUser

theorem find?_toJson (u : StatsigUser) (k : Str) :
    (toJson u).find? k = (lookupKey k (fields u)).join :=
  Json.find?_ofFields (nodup_fields u) k

theorem envFromJson_envToJson (e : StatsigEnvironment) : envFromJson (envToJson e) = some e := by
  have h : (envToJson e).find? (str "tier") = e.tier.map .str := by
    rw [envToJson, Json.find?_ofFields (by simp)]
    simp [lookupKey]
  rw [envFromJson, optStrFromJson, h]
  cases e with
  | mk tier => cases tier <;> rfl

theorem optStrFromJson_eq {j : Json} {k : Str} {o : Option Str} (h : j.find? k = o.map .str) :
    optStrFromJson j k = some o := by
  rw [optStrFromJson, h]
  cases o <;> rfl

theorem optStrMapFromJson_eq {j : Json} {k : Str} {o : Option StringMap}
    (h : j.find? k = o.map .ofStrMap) :
    optStrMapFromJson j k = some (o.map UnorderedMap.sorted) := by
  rw [optStrMapFromJson, h]
  cases o with
  | none => rfl
  | some m => simp [Json.getStrMap_ofStrMap]

/-- **An encoded user reads back**, when there is a document to read. -/
theorem fromJson_toJson {u : StatsigUser} (h : toJson u ≠ .null) :
    fromJson (toJson u) = some u.canon := by
  have hobj := isObject_toJson h
  have hid : (toJson u).value (str "userID") Json.getStr [] = some (u.userId.getD []) := by
    rw [Json.value, if_pos hobj, find?_toJson,
      show (lookupKey (str "userID") (fields u)).join = u.userId.map .str from rfl]
    cases u.userId <;> rfl
  have hids : (toJson u).value (str "customIDs") Json.getStrMap ∅ = some u.customIds.sorted := by
    rw [Json.value, if_pos hobj, find?_toJson,
      show (lookupKey (str "customIDs") (fields u)).join =
        if u.customIds.entries = [] then none else some (.ofStrMap u.customIds) from rfl]
    split_ifs with hnil
    · exact congrArg some (UnorderedMap.ext_entries (by simp [UnorderedMap.sorted, hnil]))
    · exact Json.getStrMap_ofStrMap u.customIds
  have henv : optEnvFromJson (toJson u) = some u.statsigEnvironment := by
    rw [optEnvFromJson, find?_toJson, show (lookupKey (str "statsigEnvironment") (fields u)).join =
      u.statsigEnvironment.map envToJson from rfl]
    cases u.statsigEnvironment with
    | none => rfl
    | some e => simp [envFromJson_envToJson]
  rw [fromJson, hid, hids, henv, optStrFromJson_eq (find?_toJson u (str "email")),
    optStrFromJson_eq (find?_toJson u (str "ip")),
    optStrFromJson_eq (find?_toJson u (str "userAgent")),
    optStrFromJson_eq (find?_toJson u (str "country")),
    optStrFromJson_eq (find?_toJson u (str "locale")),
    optStrFromJson_eq (find?_toJson u (str "appVersion")),
    optStrMapFromJson_eq (find?_toJson u (str "custom")),
    optStrMapFromJson_eq (find?_toJson u (str "privateAttributes")),
    StatsigUser.canon, if_neg h]
  rfl

end statsigUser

/-! ## Events -/

/-- The event that comes back: the secondary exposures are gone, and so is a double next to a
string or one that JSON cannot write. -/
def StatsigEventInternal.canon (event : StatsigEventInternal) : StatsigEventInternal :=
  { event with
    user := event.user.canon
    doubleValue := if event.stringValue.isSome then none else
      event.doubleValue.filter Double.isFinite
    metadata := event.metadata.map fun m ↦ m.sorted.mapValues Json.dumped
    secondaryExposures := none }

namespace statsigEvent

theorem nodup_fields (event : StatsigEventInternal) : ((fields event).map Prod.fst).Nodup := by
  simp only [fields, List.map_cons, List.map_nil]
  decide

theorem find?_dumped_toJson (event : StatsigEventInternal) (k : Str) :
    (toJson event).dumped.find? k =
      (lookupKey k ((fields event).map fun f ↦ (f.1, f.2.map Json.dumped))).join := by
  rw [toJson, Json.dumped_ofFields (nodup_fields event), Json.find?_ofFields]
  simpa [List.map_map, Function.comp_def] using nodup_fields event

theorem isObject_dumped_toJson (event : StatsigEventInternal) :
    (toJson event).dumped.isObject = true := by
  rw [toJson, Json.dumped_ofFields (nodup_fields event)]
  exact Json.isObject_ofFields (List.mem_map.mpr ⟨_, List.mem_cons_self, rfl⟩) rfl

/-- A member of an event, or `null` in its absence. -/
theorem value_dumped_toJson (event : StatsigEventInternal) (k : Str) :
    (toJson event).dumped.value k some .null =
      some ((lookupKey k
        ((fields event).map fun f ↦ (f.1, f.2.map Json.dumped))).join.getD .null) := by
  rw [Json.value, if_pos (isObject_dumped_toJson event), find?_dumped_toJson]
  cases (lookupKey k _).join <;> rfl

theorem readUser_toJson (u : StatsigUser) : readUser (statsigUser.toJson u) = some u.canon := by
  by_cases h : statsigUser.toJson u = .null
  · rw [h, StatsigUser.canon, if_pos h]
    rfl
  · rw [readUser, if_pos (statsigUser.isObject_toJson h), statsigUser.fromJson_toJson h]

theorem readMetadata_dumped (o : Option (UnorderedMap Str Json)) :
    readMetadata (((o.map Json.ofMap).map Json.dumped).getD .null) =
      some (o.map fun m ↦ m.sorted.mapValues Json.dumped) := by
  cases o with
  | none => rfl
  | some m =>
    have hobj : (Json.ofMap m).dumped.isObject = true := by
      rw [Json.ofMap, Json.dumped_obj]
      rfl
    simp only [Option.map_some, Option.getD_some]
    rw [readMetadata, if_pos hobj, Json.getMap_dumped_ofMap]
    rfl

/-- The two values share a member, in which the string wins and a non-finite number is lost. -/
theorem readValue_dumped (event : StatsigEventInternal) :
    let value := ((((event.stringValue.map Json.str).or (event.doubleValue.map .float)).map
      Json.dumped).getD .null)
    readStringValue value = some event.stringValue ∧
      readDoubleValue value = some event.canon.doubleValue := by
  cases hs : event.stringValue with
  | some s => simp [StatsigEventInternal.canon, hs, readStringValue, readDoubleValue, Json.isString,
      Json.getStr]
  | none =>
    cases hd : event.doubleValue with
    | none => simp [StatsigEventInternal.canon, hs, hd, readStringValue, readDoubleValue,
        Json.isString, Json.isNumber]
    | some d =>
      by_cases hf : d.isFinite = true <;>
        simp [StatsigEventInternal.canon, hs, hd, hf, readStringValue, readDoubleValue,
          Json.isString, Json.isNumber, Json.getDouble, Option.filter]

/-- **An encoded event reads back as its `canon`.** -/
theorem fromJson_dumped_toJson (event : StatsigEventInternal) :
    fromJson (toJson event).dumped = some event.canon := by
  have hname : ((toJson event).dumped.find? (str "eventName")).bind Json.getStr =
      some event.eventName := by
    rw [find?_dumped_toJson]
    show (Json.str event.eventName).dumped.getStr = _
    rw [Json.dumped_str]
    rfl
  have htime : ((toJson event).dumped.find? (str "time")).bind Json.getInt64 =
      some event.time := by
    rw [find?_dumped_toJson]
    show (Json.int event.time.toInt).dumped.getInt64 = _
    rw [Json.dumped_int, Json.getInt64, Int64.ofInt_toInt]
  have huser : ((toJson event).dumped.value (str "user") some .null).bind readUser =
      some event.user.canon := by
    rw [value_dumped_toJson]
    show readUser (statsigUser.toJson event.user).dumped = _
    rw [statsigUser.dumped_toJson, readUser_toJson]
  have hmeta : ((toJson event).dumped.value (str "metadata") some .null).bind readMetadata =
      some event.canon.metadata := by
    rw [value_dumped_toJson]
    exact readMetadata_dumped event.metadata
  have hexp : ((toJson event).dumped.value (str "secondary_exposures") some .null).bind
      readExposures = some none := by
    rw [value_dumped_toJson]
    rfl
  have hvalue : (toJson event).dumped.value (str "value") some .null =
      some ((((event.stringValue.map Json.str).or (event.doubleValue.map .float)).map
        Json.dumped).getD .null) := value_dumped_toJson event (str "value")
  obtain ⟨hs, hd⟩ := readValue_dumped event
  simp only [fromJson, hname, htime, huser, hmeta, hexp, hvalue, Option.bind_eq_bind,
    Option.bind_some, hs, hd]
  rfl

end statsigEvent

/-! ## Failed batches -/

/-- The payload that comes back. -/
def RetryableEventPayload.canon (payload : RetryableEventPayload) : RetryableEventPayload :=
  { payload with events := payload.events.map StatsigEventInternal.canon }

namespace retryableEventPayload

theorem dumped_toJson (payload : RetryableEventPayload) :
    (toJson payload).dumped = .ofFields [(str "attempts", some (.int payload.attempts.toInt)),
      (str "events", some (.arr (payload.events.map fun e ↦ (statsigEvent.toJson e).dumped)))] := by
  rw [toJson, Json.dumped_ofFields (by simp; decide)]
  simp [List.map_map, Function.comp_def]

theorem mapM_eq_some_map {α β γ : Type} {f : β → Option γ} {g : α → β} {h : α → γ}
    (hfg : ∀ a, f (g a) = some (h a)) (l : List α) : (l.map g).mapM f = some (l.map h) := by
  induction l with
  | nil => rfl
  | cons a l ih => simp [hfg, ih]

/-- **An encoded payload reads back as its `canon`.** -/
theorem fromJson_dumped_toJson (payload : RetryableEventPayload) :
    fromJson (toJson payload).dumped = some payload.canon := by
  have hatt : ((toJson payload).dumped.find? (str "attempts")).bind Json.getInt32 =
      some payload.attempts := by
    rw [dumped_toJson, Json.find?_ofFields (by simp; decide)]
    show some (Int32.ofInt payload.attempts.toInt) = _
    rw [Int32.ofInt_toInt]
  have hev : ((toJson payload).dumped.find? (str "events")).bind Json.getArr =
      some (payload.events.map fun e ↦ (statsigEvent.toJson e).dumped) := by
    rw [dumped_toJson, Json.find?_ofFields (by simp; decide)]
    rfl
  simp only [fromJson, hatt, hev, Option.bind_eq_bind, Option.bind_some,
    mapM_eq_some_map statsigEvent.fromJson_dumped_toJson]
  rfl

theorem fromJsonArray_dumped_toJsonArray (failures : List RetryableEventPayload) :
    fromJsonArray (toJsonArray failures).dumped =
      some (failures.map RetryableEventPayload.canon) := by
  rw [toJsonArray, Json.dumped_arr, List.map_map, fromJsonArray, Json.getArr, Option.bind_some]
  exact mapM_eq_some_map fromJson_dumped_toJson failures

/-- **What is written to the file reads back as the list of the `canon`s.** -/
theorem deserialize_serialize {lib : JsonText} {failures : List RetryableEventPayload} {text : Str}
    (h : serialize lib failures = some { code := .ok, value := some text }) :
    deserialize lib text =
      { code := .ok, value := some (failures.map RetryableEventPayload.canon) } := by
  obtain ⟨s, hs, heq⟩ := Option.map_eq_some_iff.mp h
  obtain rfl : s = text := by simpa using heq
  rw [deserialize, lib.parse_of_dump hs, Option.bind_some, fromJsonArray_dumped_toJsonArray]

end retryableEventPayload

/-! ## A second time -/

theorem StatsigUser.canon_canon (u : StatsigUser) : u.canon.canon = u.canon := by
  by_cases h : statsigUser.toJson u = .null
  · have hnil : u.canon = {} := if_pos h
    rw [hnil]
    rfl
  · have hcanon : u.canon = { u with
        userId := some (u.userId.getD [])
        customIds := u.customIds.sorted
        custom := u.custom.map UnorderedMap.sorted
        privateAttributes := u.privateAttributes.map UnorderedMap.sorted } := if_neg h
    have hne : statsigUser.toJson u.canon ≠ .null := by
      rw [Ne, statsigUser.toJson_eq_null_iff, hcanon]
      intro hall
      exact absurd (hall (str "userID", some (.str (u.userId.getD []))) (by
        simp [statsigUser.fields])) (by simp)
    rw [StatsigUser.canon, if_neg hne, hcanon]
    simp [Function.comp_def]

/-- **Nothing more is lost** when a file is read and written again. -/
theorem StatsigEventInternal.canon_canon (e : StatsigEventInternal) : e.canon.canon = e.canon := by
  have hmeta : ∀ m : UnorderedMap Str Json,
      (m.sorted.mapValues Json.dumped).sorted.mapValues Json.dumped =
        m.sorted.mapValues Json.dumped := fun m ↦ by
    rw [UnorderedMap.sorted_mapValues, UnorderedMap.sorted_sorted]
    exact UnorderedMap.ext_entries (by
      simp [UnorderedMap.mapValues, List.map_map, Function.comp_def])
  have hvalue : ∀ o : Option Double,
      (o.filter Double.isFinite).filter Double.isFinite = o.filter Double.isFinite := fun o ↦ by
    cases o with
    | none => rfl
    | some d => by_cases hd : d.isFinite = true <;> simp [Option.filter, hd]
  simp only [canon, StatsigUser.canon_canon, Option.map_map]
  congr 1
  · split
    · rfl
    · exact hvalue e.doubleValue
  · exact congrArg (fun f ↦ e.metadata.map f) (funext hmeta)

theorem RetryableEventPayload.canon_canon (p : RetryableEventPayload) :
    p.canon.canon = p.canon := by
  simp only [canon, List.map_map]
  exact congrArg _ (List.map_congr_left fun e _ ↦ e.canon_canon)

/-! ## The same payloads -/

/-- The same user: maps are compared as maps, and no user id is the empty user id. -/
structure StatsigUser.Same (u u' : StatsigUser) : Prop where
  userId : u.userId.getD [] = u'.userId.getD []
  customIds : u.customIds.Equiv u'.customIds
  email : u.email = u'.email
  ip : u.ip = u'.ip
  userAgent : u.userAgent = u'.userAgent
  country : u.country = u'.country
  locale : u.locale = u'.locale
  appVersion : u.appVersion = u'.appVersion
  custom : Option.Rel UnorderedMap.Equiv u.custom u'.custom
  privateAttributes : Option.Rel UnorderedMap.Equiv u.privateAttributes u'.privateAttributes
  statsigEnvironment : u.statsigEnvironment = u'.statsigEnvironment

/-- The same event, with the same user. -/
structure StatsigEventInternal.Same (e e' : StatsigEventInternal) : Prop where
  eventName : e.eventName = e'.eventName
  time : e.time = e'.time
  user : e.user.Same e'.user
  stringValue : e.stringValue = e'.stringValue
  doubleValue : e.doubleValue = e'.doubleValue
  metadata : Option.Rel UnorderedMap.Equiv e.metadata e'.metadata
  secondaryExposures :
    Option.Rel (List.Forall₂ UnorderedMap.Equiv) e.secondaryExposures e'.secondaryExposures

/-- The same payload: as many attempts, and the same events in the same order. -/
structure RetryableEventPayload.Same (p p' : RetryableEventPayload) : Prop where
  attempts : p.attempts = p'.attempts
  events : List.Forall₂ StatsigEventInternal.Same p.events p'.events

theorem rel_map_sorted (o : Option StringMap) :
    Option.Rel UnorderedMap.Equiv o (o.map UnorderedMap.sorted) := by
  cases o with
  | none => exact .none
  | some m => exact .some (UnorderedMap.sorted_equiv m).symm

theorem StatsigUser.same_canon (u : StatsigUser) : u.Same u.canon := by
  rw [canon]
  split_ifs with h
  · obtain rfl := statsigUser.toJson_eq_null_iff_eq_empty.mp h
    exact ⟨rfl, .refl _, rfl, rfl, rfl, rfl, rfl, rfl, .none, .none, rfl⟩
  · exact ⟨rfl, (UnorderedMap.sorted_equiv _).symm, rfl, rfl, rfl, rfl, rfl, rfl,
      rel_map_sorted _, rel_map_sorted _, rfl⟩

/-- What the file format can carry: one value, finite numbers, strings in UTF-8. -/
structure StatsigEventInternal.Encodable (e : StatsigEventInternal) : Prop where
  oneValue : e.stringValue = none ∨ e.doubleValue = none
  finiteValue : ∀ d, e.doubleValue = some d → d.isFinite = true
  finiteMetadata : ∀ m, e.metadata = some m → ∀ kv ∈ m.entries, kv.2.dumped = kv.2
  utf8 : e.validUtf8 = true

theorem StatsigEventInternal.Encodable.canon_doubleValue {e : StatsigEventInternal}
    (h : e.Encodable) : e.canon.doubleValue = e.doubleValue := by
  show (if e.stringValue.isSome then none else e.doubleValue.filter Double.isFinite) = _
  cases hd : e.doubleValue with
  | none => simp
  | some d =>
    have hs : e.stringValue = none := h.oneValue.resolve_right (by simp [hd])
    simp [hs, Option.filter, h.finiteValue d hd]

theorem StatsigEventInternal.Encodable.rel_metadata {e : StatsigEventInternal} (h : e.Encodable) :
    Option.Rel UnorderedMap.Equiv e.metadata e.canon.metadata := by
  show Option.Rel _ _ (e.metadata.map fun m ↦ m.sorted.mapValues Json.dumped)
  cases hm : e.metadata with
  | none => exact .none
  | some m =>
    refine .some ?_
    have hmap : m.entries.map (fun kv ↦ (kv.1, kv.2.dumped)) = m.entries :=
      (List.map_congr_left fun kv hkv ↦ by rw [h.finiteMetadata m hm kv hkv, id]).trans
        (List.map_id _)
    have hperm := (UnorderedMap.sorted_equiv m).map fun kv : Str × Json ↦ (kv.1, kv.2.dumped)
    rw [hmap] at hperm
    exact hperm.symm

/-- **What an event loses** on its way through the file: the secondary exposures, and nothing
else. -/
theorem StatsigEventInternal.Encodable.same_canon_iff {e : StatsigEventInternal}
    (h : e.Encodable) : e.Same e.canon ↔ e.secondaryExposures = none := by
  constructor
  · intro hs
    have hrel : Option.Rel _ e.secondaryExposures none := hs.secondaryExposures
    cases hx : e.secondaryExposures with
    | none => rfl
    | some x => rw [hx] at hrel; cases hrel
  · intro hx
    refine ⟨rfl, rfl, e.user.same_canon, rfl, h.canon_doubleValue.symm, h.rel_metadata, ?_⟩
    rw [hx]
    exact .none

/-! ## The round trip -/

namespace retryableEventPayload

/-- The list is written, and what is read back is the same list. -/
def DecodesToSame (lib : JsonText) (failures : List RetryableEventPayload) : Prop :=
  ∃ text decoded, serialize lib failures = some { code := .ok, value := some text } ∧
    deserialize lib text = { code := .ok, value := some decoded } ∧
      List.Forall₂ RetryableEventPayload.Same failures decoded

/-- A list that is the same as the list of the `canon`s has lost nothing. -/
theorem forall₂_same_canon_iff {failures : List RetryableEventPayload}
    (h : ∀ p ∈ failures, ∀ e ∈ p.events, e.Encodable) :
    List.Forall₂ RetryableEventPayload.Same failures (failures.map RetryableEventPayload.canon) ↔
      ∀ p ∈ failures, ∀ e ∈ p.events, e.secondaryExposures = none := by
  rw [List.forall₂_map_right_iff, List.forall₂_same]
  refine forall₂_congr fun p hp ↦ ?_
  have hevents : List.Forall₂ StatsigEventInternal.Same p.events
      (p.events.map StatsigEventInternal.canon) ↔ ∀ e ∈ p.events, e.secondaryExposures = none := by
    rw [List.forall₂_map_right_iff, List.forall₂_same]
    exact forall₂_congr fun e he ↦ (h p hp e he).same_canon_iff
  exact ⟨fun hs ↦ hevents.mp hs.events, fun hn ↦ ⟨rfl, hevents.mpr hn⟩⟩

/-- **When decoding undoes encoding.**  The encoder writes the secondary exposures of an event under
one name and the decoder looks for them under another, so a list comes back the same exactly when
no event in it has any. -/
theorem decodesToSame_iff (lib : JsonText) (failures : List RetryableEventPayload)
    (h : ∀ p ∈ failures, ∀ e ∈ p.events, e.Encodable) :
    DecodesToSame lib failures ↔ ∀ p ∈ failures, ∀ e ∈ p.events, e.secondaryExposures = none := by
  rw [← forall₂_same_canon_iff h]
  constructor
  · rintro ⟨text, decoded, hs, hd, hsame⟩
    rw [deserialize_serialize hs] at hd
    obtain rfl : failures.map RetryableEventPayload.canon = decoded := by simpa using hd
    exact hsame
  · intro hsame
    obtain ⟨text, hs⟩ := exists_serialize lib fun p hp e he ↦ (h p hp e he).utf8
    exact ⟨text, _, hs, deserialize_serialize hs, hsame⟩

/-- A batch with an ordinary event. -/
def plainPayload : RetryableEventPayload where
  attempts := 1
  events := [{ eventName := str "my_event", time := 123, user := { userId := some (str "a-user") }
               stringValue := some (str "a_string") }]

/-- What the file holds then. -/
def plainString : Str :=
  str ("[\x7b\"attempts\":1,\"events\":[\x7b\"eventName\":\"my_event\",\"time\":123," ++
    "\"user\":\x7b\"userID\":\"a-user\"\x7d,\"value\":\"a_string\"\x7d]\x7d]")

/-- A library that writes `plainPayload` as the file has it. -/
noncomputable def plainText : JsonText :=
  .ofTable [(toJsonArray [plainPayload], plainString)] (by decide +kernel)

theorem plainPayload_encodable : ∀ p ∈ [plainPayload], ∀ e ∈ p.events, e.Encodable := by
  intro p hp e he
  obtain rfl : p = plainPayload := by simpa using hp
  obtain rfl : e = _ := List.mem_singleton.mp he
  exact ⟨.inr rfl, by simp, by simp, by decide +kernel⟩

theorem decodesToSame_plainPayload :
    DecodesToSame plainText [plainPayload] ↔
      ∀ p ∈ [plainPayload], ∀ e ∈ p.events, e.secondaryExposures = none :=
  decodesToSame_iff plainText [plainPayload] plainPayload_encodable

/-- A batch with a gate exposure, which always has secondary exposures. -/
def exposurePayload : RetryableEventPayload where
  attempts := 1
  events := [{ eventName := str "statsig::gate_exposure", time := 123,
               secondaryExposures := some [] }]

/-- The exposures of `exposurePayload` do not survive. -/
theorem not_forall_decodesToSame :
    ¬ ∀ (lib : JsonText) (failures : List RetryableEventPayload),
      (∀ p ∈ failures, ∀ e ∈ p.events, e.Encodable) → DecodesToSame lib failures := by
  intro h
  have henc : ∀ p ∈ [exposurePayload], ∀ e ∈ p.events, e.Encodable := by
    intro p hp e he
    obtain rfl : p = exposurePayload := by simpa using hp
    obtain rfl : e = _ := List.mem_singleton.mp he
    exact ⟨.inl rfl, by simp, by simp, by decide +kernel⟩
  obtain ⟨text, decoded, hs, hd, hsame⟩ := h plainText [exposurePayload] henc
  rw [deserialize_serialize hs] at hd
  obtain rfl : [exposurePayload].map RetryableEventPayload.canon = decoded := by simpa using hd
  have hnone := (forall₂_same_canon_iff henc).mp hsame exposurePayload (by simp) _ (by
    rw [exposurePayload]; exact List.mem_cons_self)
  exact absurd hnone (by simp)

end retryableEventPayload

end Statsig
