import Statsig.RoundTrip

/-!
# What survives the serialisation of a user

`StatsigUser` has a serialiser of its own, the pair `statsig_user::Serialize` and `Deserialize`.
A user with nothing set is serialised as `null`, which the deserialiser refuses, because `value()`
throws on what is not an object.  `deserializesToSame_iff` says that this is the only user that does
not come back.
-/

set_option autoImplicit false

namespace Statsig

namespace statsigUser

variable (lib : JsonText) (user : StatsigUser)

/-- `statsig_user::Serialize`; `none` where `dump` throws. -/
def serialize : Option (StatsigResult Str) :=
  (lib.dump (toJson user)).map fun text ↦ { code := .ok, value := some text }

/-- `statsig_user::Deserialize` -/
def deserialize (input : Str) : StatsigResult StatsigUser :=
  match (lib.parse input).bind fromJson with
  | some user => { code := .ok, value := some user }
  | none => { code := .jsonFailureStatsigUser }

/-- The user is serialised, and the text is deserialised to the same user. -/
def DeserializesToSame : Prop :=
  ∃ text user', serialize lib user = some { code := .ok, value := some text } ∧
    deserialize lib text = { code := .ok, value := some user' } ∧ user.Same user'

variable {lib user}

theorem exists_serialize (h : user.validUtf8 = true) :
    ∃ text, serialize lib user = some { code := .ok, value := some text } ∧
      lib.parse text = some (toJson user) := by
  have hvalid : (toJson user).validUtf8 = true := (validUtf8_toJson user).trans h
  have hdump : lib.dump (toJson user) = some (lib.text (toJson user)) := by
    rw [JsonText.dump, if_pos hvalid]
  refine ⟨lib.text (toJson user), by rw [serialize, hdump]; rfl, ?_⟩
  rw [lib.parse_of_dump hdump, dumped_toJson]

theorem deserialize_of_parse {text : Str} (h : lib.parse text = some (toJson user)) :
    deserialize lib text =
      if user = {} then { code := .jsonFailureStatsigUser }
      else { code := .ok, value := some user.canon } := by
  rw [deserialize, h, Option.bind_some]
  split_ifs with hempty
  · rw [toJson_eq_null_iff_eq_empty.mpr hempty]
    rfl
  · rw [fromJson_toJson (mt toJson_eq_null_iff_eq_empty.mp hempty)]

variable (lib) in
/-- The user with nothing set is refused. -/
theorem not_deserializesToSame_empty : ¬ DeserializesToSame lib {} := by
  rintro ⟨text, user', hserialize, hdeserialize, -⟩
  have hvalid : StatsigUser.validUtf8 {} = true := by decide
  obtain ⟨text', hserialize', hparse⟩ := exists_serialize hvalid
  obtain rfl : text = text' := by simpa using hserialize.symm.trans hserialize'
  rw [deserialize_of_parse hparse, if_pos rfl] at hdeserialize
  exact absurd (congrArg StatsigResult.code hdeserialize) (by simp)

/-- **When a user survives**: something is set. -/
theorem deserializesToSame_iff (lib : JsonText) (user : StatsigUser)
    (h : user.validUtf8 = true) : DeserializesToSame lib user ↔ user ≠ {} := by
  constructor
  · rintro hsame rfl
    exact not_deserializesToSame_empty lib hsame
  · intro hne
    obtain ⟨text, hserialize, hparse⟩ := exists_serialize h
    refine ⟨text, user.canon, hserialize, ?_, user.same_canon⟩
    rw [deserialize_of_parse hparse, if_neg hne]

/-- The user of a test, with the text that the test expects. -/
def employee : StatsigUser where
  userId := some (str "a-user")
  customIds := .ofList [(str "employeeID", str "an-employee")]

def employeeString : Str :=
  str "\x7b\"customIDs\":\x7b\"employeeID\":\"an-employee\"\x7d,\"userID\":\"a-user\"\x7d"

/-- A library that writes the text of `employee`, and the text of `null`. -/
noncomputable def userText : JsonText :=
  .ofTable [(toJson employee, employeeString), (.null, str "null")] (by decide +kernel)

theorem deserializesToSame_employee :
    DeserializesToSame userText employee ↔ employee ≠ {} :=
  deserializesToSame_iff userText employee (by decide +kernel)

/-- The user with nothing set does not survive. -/
theorem not_forall_deserializesToSame :
    ¬ ∀ (lib : JsonText) (user : StatsigUser), user.validUtf8 = true →
      DeserializesToSame lib user := by
  intro h
  exact not_deserializesToSame_empty userText (h userText {} (by decide))

end statsigUser

end Statsig
