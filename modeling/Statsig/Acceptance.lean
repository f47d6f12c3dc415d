import Statsig.EventDelivery

/-!
# Which batches count as delivered

The outcome of a log-event request goes through three hands.  The lambda of
`NetworkService::SendEvents` turns the final response into an optional truth value; the callbacks of
`EventLogger` save the batch, or leave it at that, by what they find there.

The two sides do not mean the same by it: the lambda says whether the server accepted the batch, and
the callbacks ask whether the lambda has said anything.  `countsAccepted_iff` says where this makes
no difference.
-/

set_option autoImplicit false

namespace Statsig

namespace EventLogger

/-! ## The callbacks -/

/-- The callback in `SendEvents`, once it has locked the logger: the attempt that it saves the batch
with, if it does. -/
def onSendResult (result : NetworkResult Bool) : Option Int32 :=
  if !result.value.isSome then some 1 else none

/-- The callback in `RetryFailedEvents`, which has captured the number of the attempt. -/
def onRetryResult (attempt : Int32) (result : NetworkResult Bool) : Option Int32 :=
  if !result.value.isSome && decide (attempt ≤ constants.kFailedEventPayloadRetryCount) then
    some attempt
  else none

/-- The callback that goes with a batch. -/
def onResult : Origin → NetworkResult Bool → Option Int32
  | .flush => onSendResult
  | .file attempt => onRetryResult attempt

theorem onResult_eq (origin : Origin) (result : NetworkResult Bool) :
    onResult origin result =
      if !result.value.isSome && origin.saves then some origin.attempt else none := by
  cases origin with
  | flush => simp [onResult, onSendResult, Origin.saves, Origin.attempt]
  | file attempt => rfl

/-- A batch within its limit is saved exactly when the lambda says nothing. -/
theorem onResult_eq_none_iff {origin : Origin} (h : origin.saves = true)
    (result : NetworkResult Bool) : onResult origin result = none ↔ result.value.isSome = true := by
  rw [onResult_eq, h, Bool.and_true]
  cases result.value <;> simp

end EventLogger

open EventLogger NetworkService

/-- **The final response in the machine**: it is passed through the lambda to the callback. -/
theorem EventDelivery.stepSend_of_final (lib : JsonText) (s : EventDelivery) (i : ℕ) {send : Send}
    {attempt : ℤ} {world : World} (hstage : send.stage = .posted attempt)
    (hfinal : shouldRetry constants.kLogEventRetryCount attempt world.response = false) :
    stepSend lib s i world send =
      match onResult send.origin (onLogEventResponse world.response) with
      | some _ => s.setStage i send .saving
      | none =>
        if hasSuccessCode world.response then
          { s.endSend i send with
            ledger := { s.ledger with delivered := s.ledger.delivered ++ send.events } }
        else
          { s.endSend i send with
            ledger := { s.ledger with dropped := s.ledger.dropped ++ send.events } } := by
  rw [onResult_eq, onLogEventResponse_eq, isSome_sendEventsResult]
  simp only [stepSend, hstage, hfinal, isSome_sendEventsResult]
  cases hasSuccessCode world.response with
  | true => rfl
  | false => cases send.origin.saves <;> rfl

/-! ## What the callbacks make of it -/

/-- The server says that it has accepted the batch. -/
def HttpResponse.Accepts (response : HttpResponse) : Prop :=
  hasSuccessCode response = true ∧
    ∃ res, (logEventResponse.deserialize response.text).value = some res ∧ res.success = true

/-- The batch is left at that exactly when it is reported as accepted, and it is reported exactly
when it is. -/
structure CountsAccepted (origin : Origin) (response : HttpResponse) : Prop where
  left : onResult origin (onLogEventResponse response) = none ↔
    (onLogEventResponse response).value = some true
  reported : (onLogEventResponse response).value = some true ↔ response.Accepts

theorem value_onLogEventResponse_iff (response : HttpResponse) :
    (onLogEventResponse response).value = some true ↔ response.Accepts := by
  rw [onLogEventResponse, HttpResponse.Accepts]
  cases hcode : hasSuccessCode response with
  | false => simp
  | true =>
    cases hvalue : (logEventResponse.deserialize response.text).value with
    | none => simp [hvalue]
    | some res => simp [hvalue]

theorem not_accepts (response : HttpResponse) : ¬ response.Accepts := by
  rintro ⟨-, res, hres, -⟩
  exact absurd hres (by simp [logEventResponse.deserialize])

/-- **When a batch counts as delivered only if it was accepted**: whenever the request has failed,
and never when it has not. -/
theorem countsAccepted_iff (origin : Origin) (response : HttpResponse)
    (h : origin.saves = true) :
    CountsAccepted origin response ↔ hasSuccessCode response = false := by
  have hvalue := mt (value_onLogEventResponse_iff response).mp (not_accepts response)
  have hleft : onResult origin (onLogEventResponse response) = none ↔
      hasSuccessCode response = true := by
    rw [onResult_eq_none_iff h, onLogEventResponse_eq, isSome_sendEventsResult]
  constructor
  · intro hcounts
    rw [← Bool.not_eq_true, ← hleft]
    exact fun hnone ↦ hvalue (hcounts.left.mp hnone)
  · intro hfailed
    refine ⟨iff_of_false ?_ hvalue, value_onLogEventResponse_iff response⟩
    rw [hleft, hfailed]
    simp

/-- The server is down, and the batch is kept. -/
theorem countsAccepted_unavailable :
    CountsAccepted .flush { status := 503 } ↔ hasSuccessCode { status := 503 } = false :=
  countsAccepted_iff .flush { status := 503 } rfl

/-- The server has refused the batch, in so many words. -/
def refusal : HttpResponse := { status := 200, text := str "\x7b\"success\":false\x7d" }

/-- The refused batch is not kept. -/
theorem not_forall_countsAccepted :
    ¬ ∀ (origin : Origin) (response : HttpResponse), origin.saves = true →
      CountsAccepted origin response := by
  intro h
  have hleft := (h .flush refusal rfl).left
  exact absurd hleft (by decide +kernel)

end Statsig
