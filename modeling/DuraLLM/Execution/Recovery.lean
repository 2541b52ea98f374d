import DuraLLM.Execution.Attempt
import Mathlib.Data.List.Infix

/-! # After a failed attempt

What a failure leaves in the stores, and what the loop does next: clamp the
output, shrink the window, fall back, back off, or give up.  None of it touches
a permit.
-/

namespace DuraLLM

variable {Json Decision : Type}

open Raising (ofLocal)

/-- `needle in text` -/
def hasText (needle text : String) : Bool := needle.toList <:+: text.toList

/-! ## Records -/

/-- Keep a rate-limited lane out of new traffic; a success frees it. -/
def recordLaneOutcome (endpoint : Endpoint) (failure : Option FailureClassification) :
    Local Json Decision Unit :=
  match endpoint.resourceLane with
  | none => pure ()
  | some lane =>
      if lane = "" then pure ()
      else
        match failure with
        | none => Local.keep (.setLaneAvailable lane)
        | some f =>
            if f.reason.isRateLimit then
              Local.keep (.setLaneUnavailable lane f.reason (orNumber f.retryAfterSeconds 60))
            else pure ()

def emitAttempt (record : AttemptRecord) : Local Json Decision Unit :=
  if record.success then Local.event (.upstreamAttemptSucceeded record)
  else Local.event (.upstreamAttemptFailed record)

def prepareDurableAttempt (executor : GatewayExecutor Json) (record : AttemptRecord) :
    Local Json Decision Unit :=
  if executor.hasAttemptStore then Local.keep (.prepareAttempt record) else pure ()

def finishDurableAttempt (executor : GatewayExecutor Json) (record : AttemptRecord)
    (status : AttemptStatus) (detail : AttemptDetail) : Local Json Decision Unit :=
  if executor.hasAttemptStore then Local.keep (.finishAttempt record status detail) else pure ()

/-- A failed or ambiguous attempt settles the reserved amount. -/
def settleReserved (reservation : Option Reservation) : Local Json Decision Unit :=
  reservation.forM fun r => Local.keep (.settleReserved r)

def finish (record : AttemptRecord) (success : Bool) (statusCode : Nat)
    (failure : Option FailureClassification) : Local Json Decision AttemptRecord := do
  return record.finish (← Local.monotonic) success statusCode failure

/-- Ledger and event of a finished attempt. -/
def recordAttempt (s : LoopState Json) (record : AttemptRecord) :
    Local Json Decision (LoopState Json) := do
  emitAttempt record
  return { s with ledger := s.ledger.recordAttempt record }

/-! ## Horizons -/

/-- Tier 1 is a transient probe of 30 s, tier 2 the rate limit's own delay. -/
def cooldownSeconds (classified : FailureClassification) : Option Seconds :=
  match classified.reason with
  | .rateLimit | .upstreamRateLimit =>
      some (min 120 (max 30 (orNumber classified.retryAfterSeconds 60)))
  | .serverError | .timeout | .connectionRefused | .overloaded => some 30
  | _ => none

/-- Tier 3 is the daily quota. -/
def quotaSeconds (classified : FailureClassification) : Option Seconds :=
  if classified.reason = .billing then some (orNumber classified.retryAfterSeconds 86400) else none

/-- The quota of the whole provider account is gone. -/
def isAccountWide (endpoint : Endpoint) (classified : FailureClassification) : Bool :=
  let message := classified.message.toLower
  hasText "free-models-per-day" message || hasText "free model requests" message ||
    endpoint.provider.toLower == "openrouter"

/-- `endpoint.id.split(":")[-1]` -/
def routeId (endpoint : Endpoint) : String := (endpoint.id.splitOn ":").getLast?.getD ""

/-- Lock an exhausted quota out, in the pool manager and in the durable store. -/
def lockQuota (call : ExecuteCall Json) (endpoint : Endpoint) (classified : FailureClassification)
    (quota : Seconds) : Local Json Decision Unit := do
  let accountWide := isAccountWide endpoint classified
  let retrySec ←
    if quota ≠ 0 then pure quota
    else if accountWide then Local.secondsUntilUtcMidnight
    else pure 86400
  if call.executor.hasPoolManager then
    Local.keep (.markQuotaExhausted call.pool (routeId endpoint) retrySec)
    if accountWide then
      Local.keep (.markProviderQuotaExhausted call.pool endpoint.provider retrySec)
  if call.executor.recordsQuotaLockouts then
    let expiresAt := (← Local.wallTime) + retrySec
    Local.keep (.recordQuotaLockout endpoint.provider call.pool (routeId endpoint) expiresAt
      (clip 160 classified.message))
    if accountWide then
      let expiresAt := (← Local.wallTime) + retrySec
      Local.keep (.recordQuotaLockout endpoint.provider call.pool "*" expiresAt
        (clip 160 classified.message))

/-- Billing failures lock the quota out, and an account-wide one excludes every
    endpoint of the provider. -/
def recordBilling (call : ExecuteCall Json) (s : LoopState Json) (endpoint : Endpoint)
    (classified : FailureClassification) : Local Json Decision (LoopState Json) :=
  match quotaSeconds classified with
  | none => pure s
  | some quota => do
      lockQuota call endpoint classified quota
      if isAccountWide endpoint classified then
        let endpoints ← Local.endpointsForPool call.pool
        let ofProvider := endpoints.filter fun e => e.provider.toLower = endpoint.provider.toLower
        return ofProvider.foldl (fun s e => s.excludeOnce e.id) s
      else return s

def recordPermanent (call : ExecuteCall Json) (s : LoopState Json) (endpoint : Endpoint)
    (classified : FailureClassification) : Local Json Decision (LoopState Json) :=
  if classified.isPermanent ∨ classified.reason = .modelNotFound then do
    Local.keep (.markDead endpoint.id endpoint.provider endpoint.model
      (clip 160 classified.message))
    if call.executor.hasPoolManager then
      Local.keep (.markDeprecated call.pool endpoint.model)
    return s.excludeOnce endpoint.id
  else pure s

/-- Everything a failure leaves in the stores after the breaker was told.
    `recorded` says that the ledger holds the attempt already. -/
def recordFailedAttempt (call : ExecuteCall Json) (s : LoopState Json) (d : Dispatch Json Decision)
    (result : ExecutionResult) (classified : FailureClassification) (recorded : Bool) :
    Local Json Decision (LoopState Json) := do
  Local.keep (.recordHealthFailure
    { endpointId := d.endpoint.id
      latencyMs := result.durationMs
      statusCode := some result.statusCode
      errorMessage := clip 160 classified.message
      quotaExhaustedSeconds := quotaSeconds classified
      isPermanent := classified.isPermanent })
  let s ← recordBilling call s d.endpoint classified
  let s ← recordPermanent call s d.endpoint classified
  recordLaneOutcome d.endpoint (some classified)
  let record ← finish d.attempt false result.statusCode (some classified)
  let ledger := if recorded then s.ledger.recordAgain record else s.ledger.recordAttempt record
  emitAttempt record
  settleReserved d.reservation
  finishDurableAttempt call.executor record .failed (.text classified.message)
  return { s with ledger, lastFailureReason := some (.failure classified.reason) }

/-! ## What the loop does next -/

/-- The clamped output after a rejected output cap. -/
def clampedOutput (cap : Option Nat) (currentMax : Int) : Int :=
  match cap with
  | some cap => if 64 < cap then max 1 (cap - 64) else if 0 < cap then cap else min currentMax 1024
  | none => min currentMax 1024

def clampOutput (s : LoopState Json) (d : Dispatch Json Decision)
    (classified : FailureClassification) : Raising Json Decision (LoopState Json) := do
  let cap ← Raising.parseOutputCap classified.message
  let currentMax := orNumber s.request.maxOutputTokens
    (orNumber (some d.profile.maxOutputTokens) 4096)
  return { s with
    outputCapRetried := d.endpoint.id :: s.outputCapRetried
    request := { s.request with maxOutputTokens := some (clampedOutput cap currentMax) } }

/-- The share of the window that a token limit leaves. -/
def shrinkRatio (profile : ModelProfile) (tokenLimit : Nat) : ℚ :=
  let targetTokens := max 1000 (truncate (tokenLimit * (85 / 100)))
  max (1 / 10) (min (95 / 100) (targetTokens / profile.contextWindow))

/-- After a size rejection, assume a smaller window. -/
def shrinkWindow (s : LoopState Json) (d : Dispatch Json Decision)
    (classified : FailureClassification) : Raising Json Decision (LoopState Json) := do
  let tokenLimit ← match classified.tokenLimit.filter (· ≠ 0) with
    | some limit => pure (some limit)
    | none => Raising.parseInputTpmLimit classified.message
  match tokenLimit.filter (0 < ·) with
  | none => return { s with windowShrink := s.windowShrink.set d.endpoint.id (1 / 2) }
  | some limit =>
      if d.profile.contextWindow = 0 then throw (.other "ZeroDivisionError" "division by zero")
      else return { s with
        windowShrink := s.windowShrink.set d.endpoint.id (shrinkRatio d.profile limit) }

/-- Give the endpoint up: cool it down, exclude it and count the hop. -/
def stepFallback (call : ExecuteCall Json) (s : LoopState Json) (d : Dispatch Json Decision)
    (classified : FailureClassification) : Local Json Decision (LoopState Json) := do
  match cooldownSeconds classified with
  | none => pure ()
  | some seconds =>
      Local.keep (.recordHealthFailure
        { endpointId := d.endpoint.id, latencyMs := 0, cooldownSeconds := some seconds })
      if call.executor.hasPoolManager then
        Local.keep (.markCooldown call.pool d.endpoint.id seconds)
  return { s.exclude d.endpoint with ledger := s.ledger.markFallback, fallbackMarked := true }

def computeBackoffSeconds (retry : RetryPolicy) (attemptIndex : Nat)
    (retryAfter : Option Seconds) : Local Json Decision Seconds :=
  match retryAfter.filter (0 < ·) with
  | some seconds => pure seconds
  | none => do
      let capped := retry.backoffCapMs attemptIndex
      if retry.jitter then return (← Local.uniform retry.baseBackoffMs capped) / 1000
      else return capped / 1000

/-- Retry the same endpoint after a wait, where the deadline allows one. -/
def backOff (call : ExecuteCall Json) (s : LoopState Json) (d : Dispatch Json Decision)
    (classified : FailureClassification) : Local Json Decision (LoopState Json) := do
  let policy ← Local.policy
  let backoff ← computeBackoffSeconds policy.retry (s.ledger.attemptsOn d.endpoint.id)
    classified.retryAfterSeconds
  if call.deadline.remainingMs (← Local.monotonic) / 1000 ≤ backoff then
    stepFallback call s d classified
  else
    Local.keep (.sleep backoff)
    match d.endpoint.resourceLane with
    | none => pure ()
    | some lane => if lane = "" then pure () else Local.keep (.setLaneAvailable lane)
    return s

def FailoverReason.isSizeRejection : FailoverReason → Bool
  | .payloadTooLarge | .contextOverflow => true
  | _ => false

/-- Retry, fall back or give up. -/
def retryOrFallBack (call : ExecuteCall Json) (s : LoopState Json) (d : Dispatch Json Decision)
    (classified : FailureClassification) : Raising Json Decision (LoopState Json) := do
  let policy ← ofLocal Local.policy
  if classified.retryable ∧ s.ledger.canAttemptEndpoint policy d.endpoint.id then
    ofLocal (backOff call s d classified)
  else if classified.shouldFallback then ofLocal (stepFallback call s d classified)
  else
    ofLocal (Local.event (.requestFailedNonRecoverable s.request.requestId call.pool d.endpoint.id
      classified.reason s.ledger.totalAttempts))
    throw (.nonRecoverableFailure classified d.endpoint.id)

/-- The classification decides first, the retry budget second. -/
def recover (call : ExecuteCall Json) (s : LoopState Json) (d : Dispatch Json Decision)
    (classified : FailureClassification) : Raising Json Decision (LoopState Json) := do
  let policy ← ofLocal Local.policy
  let again := s.ledger.canAttemptEndpoint policy d.endpoint.id
  if classified.reason = .outputCapExceeded ∧ d.endpoint.id ∉ s.outputCapRetried ∧ again then
    clampOutput s d classified
  else if classified.reason.isSizeRejection ∧ (s.windowShrink.get d.endpoint.id).isNone ∧
      again then
    shrinkWindow s d classified
  else retryOrFallBack call s d classified

end DuraLLM
