import Mathlib.Algebra.Order.Ring.Rat

/-! # Domain models

Times and rates are exact rationals.  A `FailureClassification` is what the
gateway knows about a failed upstream call: whether to retry it, whether to
fall back, and whether it counts against the health of the provider.
-/

namespace DuraLLM

abbrev Seconds := ℚ

inductive FailureCategory where
  | infrastructure
  | rateLimit
  | requestIncompatibility
  | semanticAgentFailure
  | clientFault
  | unknown
  deriving DecidableEq, Repr

inductive FailoverReason where
  | rateLimit
  | upstreamRateLimit
  | billing
  | auth
  | modelNotFound
  | overloaded
  | serverError
  | timeout
  | sslCertVerification
  | payloadTooLarge
  | outputCapExceeded
  | contextOverflow
  | wafBlocked
  | connectionRefused
  | schemaIncompatible
  | malformedToolCall
  | emptyCompletion
  | clientError
  | unknown
  deriving DecidableEq, Repr

/-- Why a request moves to another candidate. -/
inductive FallbackReason where
  | failure (reason : FailoverReason)
  | rateLimitRolloverRetry
  | budgetReservationDenied
  | endpointFailover
  | streamProtocolMismatch
  | streamingNotSupported
  | breakerAdmissionDenied
  | streamRouteRejected
  | contextOverflow
  | adapterHasNoNativeStream
  deriving DecidableEq, Repr

/-- `tokenLimit` is the entry of that name in `details`. -/
structure FailureClassification where
  category : FailureCategory
  reason : FailoverReason
  shouldFallback : Bool
  retryable : Bool
  poisonsHealth : Bool := true
  isPermanent : Bool := false
  statusCode : Option Nat := none
  retryAfterSeconds : Option Seconds := none
  message : String := ""
  tokenLimit : Option Nat := none
  deriving DecidableEq

end DuraLLM
