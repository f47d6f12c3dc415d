import Statsig.NetworkService

/-!
# The error boundary

Every call of the client runs under `Capture`, which takes the code that the call reports, or the
exception it throws, to the log.
-/

set_option autoImplicit false

namespace Statsig

def kShutdownTimeoutExtra : Str := str "ShutdownTimeout"

namespace ErrorBoundary

/-- `HandleBadResult`: whether it logs the result. -/
def handleBadResult (code : StatsigResultCode) (extra : Option StringMap) : Bool :=
  if code = .ok ∨ code = .clientUninitialized ∨ code = .invalidSdkKey ∨
      code = .sharedPointerLost then false
  else if code = .shutdownFailureDanglingThreads ∧
      extra.bind (·.find? kShutdownTimeoutExtra) = none then false
  else if code = .networkFailureBadStatusCode ∧ extra.bind (·.find? kBadNetworkErr) = none then
    false
  else true

/-- What `Capture` returns, what it gives to `HandleBadResult`, and what it calls `recover` with. -/
structure Captured where
  code : StatsigResultCode
  handled : Option (StatsigResultCode × Option StringMap)
  recovered : Option StatsigResultCode
  deriving DecidableEq, Repr

/-- `Capture`, of a task that reports a code, or throws. -/
def capture : Option StatsigResultCode → Captured
  | none =>
    { code := .unexpectedError, handled := none, recovered := some .unexpectedError }
  | some code =>
    { code
      handled := some (code, none)
      recovered := if handleBadResult code none then some code else none }

end ErrorBoundary

end Statsig
