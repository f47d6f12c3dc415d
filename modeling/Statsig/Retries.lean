import Mathlib.Order.Bounds.Basic
import Statsig.Buffers
import Statsig.Markers

/-!
# The attempts of a request

`PostWithRetry` with its callback, as the list of what they do in order.  The transport and the
clock are an `Exchange`: a response to each attempt, and the times at which it begins and ends.

`eq_attempts` says that a call is its attempts and then the callback, once; `performs_postWithRetry`
what that means for the requests, the callback and the markers.
-/

set_option autoImplicit false

namespace Statsig

namespace constants

def kEndpointInitialize : Str := str "/v1/initialize"

end constants

/-- What a request and the callbacks behind it do; the last callback is called with an `α`. -/
inductive NetworkAction (α : Type) where
  /-- `Diagnostics::Mark` -/
  | mark (marker : Json)
  /-- `NetworkClient::Post` -/
  | post (endpoint body : Str)
  /-- `File::WriteToCache` -/
  | write (cacheKey content : Str)
  | callback (result : α)
  deriving DecidableEq, Repr

/-- What the attempts of one call meet with. -/
structure Exchange where
  response : ℕ → HttpResponse
  started : ℕ → Int64
  ended : ℕ → Int64
  /-- The service object is there when the response comes. -/
  alive : ℕ → Bool

namespace NetworkAction

variable {α : Type}

/-- The markers, in the order they are marked. -/
def marks (actions : List (NetworkAction α)) : List Json :=
  actions.filterMap fun
    | .mark marker => some marker
    | _ => none

/-- The requests, with their endpoints and bodies. -/
def posts (actions : List (NetworkAction α)) : List (Str × Str) :=
  actions.filterMap fun
    | .post endpoint body => some (endpoint, body)
    | _ => none

/-- What the callback is called with. -/
def callbacks (actions : List (NetworkAction α)) : List α :=
  actions.filterMap fun
    | .callback result => some result
    | _ => none

theorem marks_append (xs ys : List (NetworkAction α)) : marks (xs ++ ys) = marks xs ++ marks ys :=
  List.filterMap_append

theorem posts_append (xs ys : List (NetworkAction α)) : posts (xs ++ ys) = posts xs ++ posts ys :=
  List.filterMap_append

theorem callbacks_append (xs ys : List (NetworkAction α)) :
    callbacks (xs ++ ys) = callbacks xs ++ callbacks ys := List.filterMap_append

end NetworkAction

namespace Exchange

variable {α : Type} (env : Exchange) (endpoint body : Str) (maxAttempts : ℤ)
  (callback : HttpResponse → List (NetworkAction α))

/-- The marker before an attempt, if it is one that is marked. -/
def markStart (attempt : ℕ) : List (NetworkAction α) :=
  if endpoint = constants.kEndpointInitialize then
    [.mark (markers.networkStart (env.started attempt) attempt)] else []

/-- The marker after it. -/
def markEnd (attempt : ℕ) : List (NetworkAction α) :=
  if endpoint = constants.kEndpointInitialize then
    [.mark ((env.response attempt).networkEnd (env.ended attempt) attempt)] else []

/-- `PostWithRetry` -/
def postWithRetry (attempt : ℕ := 1) : List (NetworkAction α) :=
  env.markStart endpoint attempt ++ .post endpoint body ::
    if env.alive attempt then
      env.markEnd endpoint attempt ++
        if hasSuccessCode (env.response attempt) then callback (env.response attempt)
        else if (env.response attempt).status ∉ retryableCodes ∨ maxAttempts ≤ attempt then
          callback (env.response attempt)
        else postWithRetry (attempt + 1)
    else []
termination_by (maxAttempts - attempt).toNat

/-- All that belongs to one attempt. -/
def attemptActions (attempt : ℕ) : List (NetworkAction α) :=
  env.markStart endpoint attempt ++ .post endpoint body :: env.markEnd endpoint attempt

/-- The attempt with this number is the last one, if this is its response. -/
def Stops (k : ℕ) (response : HttpResponse) : Prop :=
  hasSuccessCode response = true ∨ response.status ∉ retryableCodes ∨ maxAttempts ≤ k

instance (k : ℕ) (response : HttpResponse) : Decidable (Stops maxAttempts k response) :=
  inferInstanceAs (Decidable (_ ∨ _ ∨ _))

/-- The attempts that the background task of an update repeats are the same. -/
theorem shouldRetry_eq_false_iff {k : ℕ} {response : HttpResponse} :
    shouldRetry maxAttempts k response = false ↔ Stops maxAttempts k response := by
  simp only [shouldRetry, Stops, Bool.and_eq_false_iff, Bool.not_eq_false',
    decide_eq_false_iff_not, not_lt, or_assoc]

variable {env endpoint body maxAttempts callback}

theorem postWithRetry_of_stops {attempt : ℕ} (halive : env.alive attempt = true)
    (h : Stops maxAttempts attempt (env.response attempt)) :
    env.postWithRetry endpoint body maxAttempts callback attempt =
      env.attemptActions endpoint body attempt ++ callback (env.response attempt) := by
  rw [postWithRetry, if_pos halive, attemptActions, List.append_assoc, List.cons_append]
  split
  · rfl
  · rename_i hfailed
    rw [if_pos (h.resolve_left hfailed)]

theorem postWithRetry_of_not_stops {attempt : ℕ} (halive : env.alive attempt = true)
    (h : ¬ Stops maxAttempts attempt (env.response attempt)) :
    env.postWithRetry endpoint body maxAttempts callback attempt =
      env.attemptActions endpoint body attempt ++
        env.postWithRetry endpoint body maxAttempts callback (attempt + 1) := by
  rw [Stops, not_or] at h
  rw [postWithRetry, if_pos halive, attemptActions, List.append_assoc, List.cons_append,
    if_neg h.1, if_neg h.2]

/-- **A call is its attempts and then the callback.**  The induction is on the attempts that are
left. -/
theorem eq_attempts (endpoint body : Str) (maxAttempts : ℤ)
    (callback : HttpResponse → List (NetworkAction α)) (halive : ∀ n, env.alive n = true)
    (attempt : ℕ) :
    ∃ more, Stops maxAttempts (attempt + more) (env.response (attempt + more)) ∧
      (∀ n < more, ¬ Stops maxAttempts (attempt + n) (env.response (attempt + n))) ∧
      env.postWithRetry endpoint body maxAttempts callback attempt =
        (List.range' attempt (more + 1)).flatMap (env.attemptActions endpoint body) ++
          callback (env.response (attempt + more)) := by
  induction hleft : (maxAttempts - attempt).toNat generalizing attempt with
  | zero =>
    have hstops : Stops maxAttempts attempt (env.response attempt) := .inr (.inr (by omega))
    refine ⟨0, hstops, by simp, ?_⟩
    rw [postWithRetry_of_stops (halive attempt) hstops]
    simp
  | succ left ih =>
    by_cases hstops : Stops maxAttempts attempt (env.response attempt)
    · refine ⟨0, hstops, by simp, ?_⟩
      rw [postWithRetry_of_stops (halive attempt) hstops]
      simp
    · obtain ⟨more, hlast, hbefore, heq⟩ := ih (attempt + 1) (by push_cast; omega)
      rw [show attempt + 1 + more = attempt + (more + 1) by omega] at hlast heq
      refine ⟨more + 1, hlast, fun n hn ↦ ?_, ?_⟩
      · cases n with
        | zero => exact hstops
        | succ n =>
          rw [show attempt + (n + 1) = attempt + 1 + n by omega]
          exact hbefore n (by omega)
      · rw [postWithRetry_of_not_stops (halive attempt) hstops, heq, ← List.append_assoc,
          List.range'_succ (n := more + 1), List.flatMap_cons]

/-- **The first attempt that is not repeated is the last one**, and the callback gets its
response. -/
theorem postWithRetry_eq (endpoint body : Str) (maxAttempts : ℤ)
    (callback : HttpResponse → List (NetworkAction α)) (halive : ∀ n, env.alive n = true) :
    ∃ k, IsLeast {k | 1 ≤ k ∧ Stops maxAttempts k (env.response k)} k ∧
      env.postWithRetry endpoint body maxAttempts callback =
        (List.range' 1 k).flatMap (env.attemptActions endpoint body) ++
          callback (env.response k) := by
  obtain ⟨more, hlast, hbefore, heq⟩ := eq_attempts endpoint body maxAttempts callback halive 1
  rw [add_comm 1 more] at hlast heq
  refine ⟨more + 1, ⟨⟨by omega, hlast⟩, fun k hk ↦ ?_⟩, heq⟩
  obtain ⟨hpos, hstops⟩ := hk
  by_contra hlt
  apply hbefore (k - 1) (by omega)
  rwa [Nat.add_sub_cancel' hpos]

/-! ### What is in the list -/

open NetworkAction

/-- The markers of one attempt. -/
def attemptMarks (env : Exchange) (attempt : ℕ) : List Json :=
  [markers.networkStart (env.started attempt) attempt,
    (env.response attempt).networkEnd (env.ended attempt) attempt]

variable (env endpoint body)

theorem posts_attempts (ns : List ℕ) :
    posts (ns.flatMap (env.attemptActions (α := α) endpoint body)) =
      List.replicate ns.length (endpoint, body) := by
  induction ns with
  | nil => rfl
  | cons n ns ih =>
    have hone : posts (env.attemptActions (α := α) endpoint body n) = [(endpoint, body)] := by
      rw [attemptActions, markStart, markEnd]
      split <;> rfl
    rw [List.flatMap_cons, posts_append, hone, ih]
    rfl

theorem callbacks_attempts (ns : List ℕ) :
    callbacks (ns.flatMap (env.attemptActions (α := α) endpoint body)) = [] := by
  induction ns with
  | nil => rfl
  | cons n ns ih =>
    have hone : callbacks (env.attemptActions (α := α) endpoint body n) = [] := by
      rw [attemptActions, markStart, markEnd]
      split <;> rfl
    rw [List.flatMap_cons, callbacks_append, hone, ih]
    rfl

theorem marks_attempts (ns : List ℕ) :
    marks (ns.flatMap (env.attemptActions (α := α) endpoint body)) =
      if endpoint = constants.kEndpointInitialize then ns.flatMap env.attemptMarks else [] := by
  induction ns with
  | nil => exact (ite_self _).symm
  | cons n ns ih =>
    have hone : marks (env.attemptActions (α := α) endpoint body n) =
        if endpoint = constants.kEndpointInitialize then env.attemptMarks n else [] := by
      rw [attemptActions, markStart, markEnd]
      split <;> rfl
    rw [List.flatMap_cons, marks_append, hone, ih]
    split
    · rfl
    · rfl

/-- A call as it should be: `k` attempts with one endpoint and one body, and then the callback with
the last response. -/
structure Performs (k : ℕ) (actions : List (NetworkAction HttpResponse)) : Prop where
  posts : posts actions = List.replicate k (endpoint, body)
  callbacks : callbacks actions = [env.response k]
  last : actions.getLast? = some (.callback (env.response k))
  marks : marks actions = if endpoint = constants.kEndpointInitialize then
    (List.range' 1 k).flatMap env.attemptMarks else []
  /-- The markers are in the buffer afterwards, if it is not full on the way. -/
  marked : ∀ d : Diagnostics,
    d.markers.length + (NetworkAction.marks actions).length ≤
        constants.kMaxDiagnosticsMarkers + 1 →
      (d.markAll (NetworkAction.marks actions)).markers =
        d.markers ++ NetworkAction.marks actions

/-- **The attempts of a call**: the first that succeeds, or that is not repeated, is the last. -/
theorem performs_postWithRetry (maxAttempts : ℤ) (halive : ∀ n, env.alive n = true) :
    ∃ k, IsLeast {k | 1 ≤ k ∧ Stops maxAttempts k (env.response k)} k ∧
      env.Performs endpoint body k
        (env.postWithRetry endpoint body maxAttempts fun response ↦ [.callback response]) := by
  obtain ⟨k, hk, heq⟩ := postWithRetry_eq endpoint body maxAttempts
    (fun response ↦ [NetworkAction.callback response]) halive
  refine ⟨k, hk, ?_, ?_, ?_, ?_, fun d hroom ↦ Diagnostics.markers_markAll hroom⟩
  · rw [heq, posts_append, posts_attempts, List.length_range']
    exact List.append_nil _
  · rw [heq, callbacks_append, callbacks_attempts]
    rfl
  · rw [heq, List.getLast?_append]
    rfl
  · rw [heq, marks_append, marks_attempts]
    exact List.append_nil _

/-- A server that is down for one request. -/
def onceUnavailable : Exchange where
  response n := if n = 1 then { status := 503 } else { text := str "\x7b\x7d", status := 200 }
  started _ := 0
  ended _ := 1
  alive _ := true

theorem performs_onceUnavailable :
    ∃ k, IsLeast {k | 1 ≤ k ∧
        Stops constants.kInitializeRetryCount k (onceUnavailable.response k)} k ∧
      onceUnavailable.Performs constants.kEndpointInitialize (str "\x7b\x7d") k
        (onceUnavailable.postWithRetry constants.kEndpointInitialize (str "\x7b\x7d")
          constants.kInitializeRetryCount fun response ↦ [.callback response]) :=
  performs_postWithRetry onceUnavailable _ _ _ fun _ ↦ rfl

end Exchange

end Statsig
