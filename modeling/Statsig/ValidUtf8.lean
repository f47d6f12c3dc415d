import Statsig.Serialization

/-!
# Which records can be written

`dump` throws on a string that is not UTF-8, and nothing else throws in the encoders.  A record is
`validUtf8` when all its strings are UTF-8; its document can be printed exactly then.

Whatever was read from a text is `validUtf8`, because the reader only accepts UTF-8.
-/

set_option autoImplicit false

namespace Statsig

/-! ## Records -/

/-- Every string of the map is UTF-8. -/
def StringMap.validUtf8 (m : StringMap) : Bool :=
  m.entries.all fun e ↦ Utf8.valid e.1 && Utf8.valid e.2

/-- Every string of the user is UTF-8. -/
def StatsigUser.validUtf8 (u : StatsigUser) : Bool :=
  StringMap.validUtf8 u.customIds && u.userId.all Utf8.valid && u.email.all Utf8.valid &&
    u.ip.all Utf8.valid && u.userAgent.all Utf8.valid && u.country.all Utf8.valid &&
    u.locale.all Utf8.valid && u.appVersion.all Utf8.valid &&
    u.custom.all StringMap.validUtf8 && u.privateAttributes.all StringMap.validUtf8 &&
    u.statsigEnvironment.all fun e ↦ e.tier.all Utf8.valid

/-- Every string of the event is UTF-8. -/
def StatsigEventInternal.validUtf8 (event : StatsigEventInternal) : Bool :=
  Utf8.valid event.eventName && event.user.validUtf8 &&
    (event.metadata.all fun m ↦ m.entries.all fun e ↦ Utf8.valid e.1 && e.2.validUtf8) &&
    (event.secondaryExposures.all fun es ↦ es.all StringMap.validUtf8) &&
    event.stringValue.all Utf8.valid

theorem validUtf8_ofStrMap (m : StringMap) : (Json.ofStrMap m).validUtf8 = StringMap.validUtf8 m :=
  Json.validUtf8_ofStrMap m

theorem validUtf8_ofFields_of_names {fs : List (Str × Option Json)}
    (h : ∀ k ∈ fs.map Prod.fst, Utf8.valid k = true) :
    (Json.ofFields fs).validUtf8 = fs.all fun f ↦ f.2.all Json.validUtf8 := by
  rw [Json.validUtf8_ofFields, Bool.eq_iff_iff, List.all_eq_true, List.all_eq_true]
  refine forall₂_congr fun f hf ↦ ?_
  rw [h f.1 (List.mem_map.mpr ⟨f, hf, rfl⟩)]
  simp

theorem statsigUser.validUtf8_toJson (u : StatsigUser) :
    (statsigUser.toJson u).validUtf8 = u.validUtf8 := by
  have henv : ∀ e : StatsigEnvironment,
      (statsigUser.envToJson e).validUtf8 = e.tier.all Utf8.valid := fun e ↦ by
    rw [statsigUser.envToJson, validUtf8_ofFields_of_names (by simp; decide)]
    cases e.tier <;> simp
  rw [statsigUser.toJson, validUtf8_ofFields_of_names (by simp [statsigUser.fields]; decide)]
  have hids : Option.all Json.validUtf8
      (if u.customIds.entries = [] then none else some (.ofStrMap u.customIds)) =
        StringMap.validUtf8 u.customIds := by
    split_ifs with hnil
    · simp [StringMap.validUtf8, hnil]
    · simp [validUtf8_ofStrMap]
  simp only [statsigUser.fields, List.all_cons, List.all_nil, Option.all_map, hids,
    StatsigUser.validUtf8, Json.validUtf8_str, validUtf8_ofStrMap, henv,
    Bool.and_true, Bool.and_assoc]

theorem statsigEvent.validUtf8_toJson (event : StatsigEventInternal) :
    (statsigEvent.toJson event).validUtf8 = event.validUtf8 := by
  have hvalue : ((event.stringValue.map Json.str).or (event.doubleValue.map .float)).all
      Json.validUtf8 = event.stringValue.all Utf8.valid := by
    cases hs : event.stringValue with
    | some s => simp
    | none => cases event.doubleValue <;> simp [Json.validUtf8]
  have hmeta : (event.metadata.map Json.ofMap).all Json.validUtf8 =
      event.metadata.all fun m ↦ m.entries.all fun e ↦ Utf8.valid e.1 && e.2.validUtf8 := by
    cases event.metadata <;> simp [Json.validUtf8_ofMap]
  have hexp : (event.secondaryExposures.map fun es ↦ Json.arr (es.map .ofStrMap)).all
      Json.validUtf8 = event.secondaryExposures.all fun es ↦ es.all StringMap.validUtf8 := by
    cases event.secondaryExposures with
    | none => rfl
    | some es => simp [Function.comp_def, validUtf8_ofStrMap]
  rw [statsigEvent.toJson, validUtf8_ofFields_of_names (by simp [statsigEvent.fields]; decide)]
  simp only [statsigEvent.fields, List.all_cons, List.all_nil, Option.all_some,
    Json.validUtf8_str, statsigUser.validUtf8_toJson, hmeta, hexp, hvalue,
    StatsigEventInternal.validUtf8, Bool.and_true, Bool.and_assoc]
  rw [show ((Json.int event.time.toInt).validUtf8) = true from rfl, Bool.true_and]

namespace retryableEventPayload

theorem validUtf8_toJsonArray {failures : List RetryableEventPayload}
    (h : ∀ p ∈ failures, ∀ e ∈ p.events, e.validUtf8 = true) :
    (toJsonArray failures).validUtf8 = true := by
  rw [toJsonArray, Json.validUtf8_arr, List.all_map, List.all_eq_true]
  intro p hp
  rw [Function.comp_apply, toJson, validUtf8_ofFields_of_names (by simp; decide)]
  have hev : (Json.arr (p.events.map statsigEvent.toJson)).validUtf8 = true := by
    rw [Json.validUtf8_arr, List.all_map, List.all_eq_true]
    exact fun e he ↦ (statsigEvent.validUtf8_toJson e).trans (h p hp e he)
  simp only [List.all_cons, List.all_nil, Option.all_some, hev]
  rfl

theorem exists_serialize (lib : JsonText) {failures : List RetryableEventPayload}
    (h : ∀ p ∈ failures, ∀ e ∈ p.events, e.validUtf8 = true) :
    ∃ text, serialize lib failures = some { code := .ok, value := some text } := by
  refine ⟨lib.text (toJsonArray failures), ?_⟩
  rw [serialize, JsonText.dump, if_pos (validUtf8_toJsonArray h)]
  rfl

end retryableEventPayload

/-! ## What has been read -/

theorem of_value {α : Type} {P : α → Prop} {j : Json} {k : Str} {get : Json → Option α} {d x : α}
    (h : j.value k get d = some x) (hj : j.validUtf8 = true) (hd : P d)
    (hget : ∀ v, v.validUtf8 = true → get v = some x → P x) : P x := by
  rw [Json.value] at h
  split at h
  · cases hv : j.find? k with
    | none =>
      rw [hv] at h
      exact Option.some_inj.mp h ▸ hd
    | some v =>
      rw [hv] at h
      exact hget v (Json.validUtf8_find? hj hv) h
  · exact absurd h (by simp)

theorem valid_of_getStr {v : Json} {s : Str} (hv : v.validUtf8 = true) (h : v.getStr = some s) :
    Utf8.valid s = true := by
  rw [Json.getStr_eq_some.mp h] at hv
  simpa using hv

theorem validUtf8_of_getStrMap {v : Json} {m : StringMap} (hv : v.validUtf8 = true)
    (h : v.getStrMap = some m) : StringMap.validUtf8 m = true :=
  (validUtf8_ofStrMap m).symm.trans (Json.validUtf8_getStrMap hv h)

namespace statsigUser

theorem all_optStrFromJson {j : Json} {k : Str} {o : Option Str} (hj : j.validUtf8 = true)
    (h : optStrFromJson j k = some o) : o.all Utf8.valid = true := by
  rw [optStrFromJson] at h
  split at h
  · rw [← Option.some_inj.mp h]
    rfl
  · rename_i v hv
    obtain ⟨s, hs, rfl⟩ := Option.map_eq_some_iff.mp h
    exact valid_of_getStr (Json.validUtf8_find? hj hv) hs

theorem all_optStrMapFromJson {j : Json} {k : Str} {o : Option StringMap}
    (hj : j.validUtf8 = true) (h : optStrMapFromJson j k = some o) :
    o.all StringMap.validUtf8 = true := by
  rw [optStrMapFromJson] at h
  split at h
  · rw [← Option.some_inj.mp h]
    rfl
  · rename_i v hv
    obtain ⟨m, hm, rfl⟩ := Option.map_eq_some_iff.mp h
    exact validUtf8_of_getStrMap (Json.validUtf8_find? hj hv) hm

theorem all_optEnvFromJson {j : Json} {o : Option StatsigEnvironment} (hj : j.validUtf8 = true)
    (h : optEnvFromJson j = some o) :
    (o.all fun e ↦ e.tier.all Utf8.valid) = true := by
  rw [optEnvFromJson] at h
  split at h
  · rw [← Option.some_inj.mp h]
    rfl
  · rename_i v hv
    obtain ⟨e, he, rfl⟩ := Option.map_eq_some_iff.mp h
    obtain ⟨tier, htier, rfl⟩ := Option.map_eq_some_iff.mp he
    exact all_optStrFromJson (Json.validUtf8_find? hj hv) htier

/-- **A user that was read** is UTF-8. -/
theorem validUtf8_of_fromJson {j : Json} {u : StatsigUser} (hj : j.validUtf8 = true)
    (h : fromJson j = some u) : u.validUtf8 = true := by
  simp only [fromJson, Option.bind_eq_bind, Option.bind_eq_some_iff, Option.pure_def,
    Option.some_inj] at h
  obtain ⟨userId, hid, customIds, hids, email, hemail, ip, hip, userAgent, hua, country, hcountry,
    locale, hlocale, appVersion, hversion, custom, hcustom, privateAttributes, hprivate, env, henv,
    rfl⟩ := h
  have hid' : Utf8.valid userId = true :=
    of_value (P := fun s ↦ Utf8.valid s = true) hid hj rfl fun _ ↦ valid_of_getStr
  have hids' : StringMap.validUtf8 customIds = true :=
    of_value (P := fun m ↦ StringMap.validUtf8 m = true) hids hj rfl fun _ ↦ validUtf8_of_getStrMap
  simp only [StatsigUser.validUtf8, Option.all_some, hid', hids', all_optStrFromJson hj hemail,
    all_optStrFromJson hj hip, all_optStrFromJson hj hua, all_optStrFromJson hj hcountry,
    all_optStrFromJson hj hlocale, all_optStrFromJson hj hversion, all_optStrMapFromJson hj hcustom,
    all_optStrMapFromJson hj hprivate, all_optEnvFromJson hj henv, Bool.and_self]

end statsigUser

namespace statsigEvent

theorem all_readMetadata {v : Json} {o : Option (UnorderedMap Str Json)} (hv : v.validUtf8 = true)
    (h : readMetadata v = some o) :
    (o.all fun m ↦ m.entries.all fun e ↦ Utf8.valid e.1 && e.2.validUtf8) = true := by
  rw [readMetadata] at h
  split at h
  · obtain ⟨m, hm, rfl⟩ := Option.map_eq_some_iff.mp h
    exact (Json.validUtf8_ofMap m).symm.trans (Json.validUtf8_getMap hv hm)
  · rw [← Option.some_inj.mp h]
    rfl

theorem of_mapM_eq_some {α β : Type} {f : α → Option β} {P : α → Prop} {Q : β → Prop}
    (hf : ∀ a b, P a → f a = some b → Q b) {l : List α} {l' : List β} (h : l.mapM f = some l')
    (hl : ∀ a ∈ l, P a) : ∀ b ∈ l', Q b := by
  induction l generalizing l' with
  | nil =>
    obtain rfl : [] = l' := Option.some_inj.mp h
    simp
  | cons a l ih =>
    rw [List.mapM_cons] at h
    obtain ⟨b, hb, h⟩ := Option.bind_eq_some_iff.mp h
    obtain ⟨bs, hbs, h⟩ := Option.bind_eq_some_iff.mp h
    obtain rfl : b :: bs = l' := Option.some_inj.mp h
    rw [List.forall_mem_cons]
    exact ⟨hf a b (hl a List.mem_cons_self) hb,
      ih hbs fun x hx ↦ hl x (List.mem_cons_of_mem _ hx)⟩

theorem validUtf8_of_getArr {v : Json} {xs : List Json} (hv : v.validUtf8 = true)
    (h : v.getArr = some xs) : ∀ x ∈ xs, x.validUtf8 = true := by
  rw [Json.getArr_eq_some.mp h, Json.validUtf8_arr, List.all_eq_true] at hv
  exact hv

theorem all_readExposures {v : Json} {o : Option (List StringMap)} (hv : v.validUtf8 = true)
    (h : readExposures v = some o) : (o.all fun es ↦ es.all StringMap.validUtf8) = true := by
  rw [readExposures] at h
  split at h
  · obtain ⟨es, hes, rfl⟩ := Option.map_eq_some_iff.mp h
    obtain ⟨xs, hxs, hes⟩ := Option.bind_eq_some_iff.mp hes
    rw [Option.all_some, List.all_eq_true]
    exact of_mapM_eq_some (fun _ _ hx hm ↦ validUtf8_of_getStrMap hx hm) hes
      (validUtf8_of_getArr hv hxs)
  · rw [← Option.some_inj.mp h]
    rfl

theorem all_readStringValue {v : Json} {o : Option Str} (hv : v.validUtf8 = true)
    (h : readStringValue v = some o) : o.all Utf8.valid = true := by
  rw [readStringValue] at h
  split at h
  · obtain ⟨s, hs, rfl⟩ := Option.map_eq_some_iff.mp h
    exact valid_of_getStr hv hs
  · rw [← Option.some_inj.mp h]
    rfl

theorem validUtf8_readUser {v : Json} {u : StatsigUser} (hv : v.validUtf8 = true)
    (h : readUser v = some u) : u.validUtf8 = true := by
  rw [readUser] at h
  split at h
  · exact statsigUser.validUtf8_of_fromJson hv h
  · rw [← Option.some_inj.mp h]
    rfl

/-- **An event that was read** is UTF-8. -/
theorem validUtf8_of_fromJson {j : Json} {e : StatsigEventInternal} (hj : j.validUtf8 = true)
    (h : fromJson j = some e) : e.validUtf8 = true := by
  simp only [fromJson, Option.bind_eq_bind, Option.bind_eq_some_iff, Option.pure_def,
    Option.some_inj] at h
  obtain ⟨eventName, ⟨vname, hname, hname'⟩, time, -, user, ⟨vuser, huser, huser'⟩, metadata,
    ⟨vmeta, hmeta, hmeta'⟩, exposures, ⟨vexp, hexp, hexp'⟩, value, hvalue, stringValue, hstr,
    doubleValue, -, rfl⟩ := h
  have hmember : ∀ {k v}, j.value k some .null = some v → v.validUtf8 = true := fun hv ↦
    of_value (P := fun w ↦ w.validUtf8 = true) hv hj rfl fun w hw heq ↦
      Option.some_inj.mp heq ▸ hw
  have hname'' := valid_of_getStr (Json.validUtf8_find? hj hname) hname'
  simp only [StatsigEventInternal.validUtf8, hname'',
    validUtf8_readUser (hmember huser) huser', all_readMetadata (hmember hmeta) hmeta',
    all_readExposures (hmember hexp) hexp', all_readStringValue (hmember hvalue) hstr,
    Bool.and_self]

end statsigEvent

namespace retryableEventPayload

/-- **What is read from the failed-events file** is UTF-8, whatever the file holds. -/
theorem validUtf8_of_deserialize {lib : JsonText} {text : Str}
    {failures : List RetryableEventPayload} (h : (deserialize lib text).value = some failures) :
    ∀ p ∈ failures, ∀ e ∈ p.events, e.validUtf8 = true := by
  rw [deserialize] at h
  split at h
  · rename_i read hread
    obtain rfl : read = failures := Option.some_inj.mp h
    obtain ⟨j, hj, hread⟩ := Option.bind_eq_some_iff.mp hread
    obtain ⟨xs, hxs, hread⟩ := Option.bind_eq_some_iff.mp hread
    have hvalid := statsigEvent.validUtf8_of_getArr (lib.valid_of_parse text j hj).2 hxs
    refine statsigEvent.of_mapM_eq_some (fun x p hx hp ↦ ?_) hread hvalid
    simp only [fromJson, Option.bind_eq_bind, Option.bind_eq_some_iff, Option.pure_def,
      Option.some_inj] at hp
    obtain ⟨attempts, -, eventsJson, ⟨v, hv, harr⟩, events, hevents, rfl⟩ := hp
    exact statsigEvent.of_mapM_eq_some
      (fun _ _ hx he ↦ statsigEvent.validUtf8_of_fromJson hx he) hevents
      (statsigEvent.validUtf8_of_getArr (Json.validUtf8_find? hx hv) harr)
  · exact absurd h (by simp)

end retryableEventPayload

end Statsig
